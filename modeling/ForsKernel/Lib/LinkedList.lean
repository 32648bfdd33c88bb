import Mathlib.Data.List.Basic
import Mathlib.Data.List.Nodup

/-!
# Doubly linked lists threaded through a store

A store is seen here only through two link functions, `next` and `prev`, on an
arbitrary type of cell addresses with a distinguished `null`.  `Linked` says
that a sequence of cells is linked in order between two outer neighbours, and
`IsList` that it is a complete list hanging off a head pointer.

Every mutation of such a list is one of two edits: a block of cells is cut
out, or one cell is spliced in.  The rules `IsList.cut` and `IsList.splice`
take the new links pointwise, exactly as a sequence of assignments leaves
them, so a client only has to say what its assignments did to each link.
-/

namespace ForsKernel.Lib.LinkedList

variable {α : Type*}

/-- The first cell, or what stands after the sequence if it is empty. -/
def frontOr (after : α) : List α → α
  | [] => after
  | cell :: _ => cell

/-- The last cell, or what stands before the sequence if it is empty. -/
def backOr (before : α) : List α → α
  | [] => before
  | cell :: rest => backOr cell rest

@[simp]
theorem frontOr_nil (after : α) : frontOr after [] = after :=
  rfl

@[simp]
theorem frontOr_cons
    (after cell : α)
    (rest : List α) :
    frontOr after (cell :: rest) = cell :=
  rfl

@[simp]
theorem backOr_nil (before : α) : backOr before [] = before :=
  rfl

@[simp]
theorem backOr_cons
    (before cell : α)
    (rest : List α) :
    backOr before (cell :: rest) = backOr cell rest :=
  rfl

@[simp]
theorem backOr_append
    (before : α)
    (left right : List α) :
    backOr before (left ++ right) = backOr (backOr before left) right := by
  induction left generalizing before with
  | nil => rfl
  | cons cell rest induction => exact induction cell

/--
The cells are linked in order: the first has `before` as predecessor, the
last has `after` as successor.
-/
def Linked (next prev : α → α) : α → List α → α → Prop
  | _, [], _ => True
  | before, cell :: rest, after =>
      prev cell = before ∧ next cell = frontOr after rest ∧
        Linked next prev cell rest after

@[simp]
theorem linked_nil
    (next prev : α → α)
    (before after : α) :
    Linked next prev before [] after :=
  trivial

@[simp]
theorem linked_cons
    (next prev : α → α)
    (before cell after : α)
    (rest : List α) :
    Linked next prev before (cell :: rest) after ↔
      prev cell = before ∧ next cell = frontOr after rest ∧
        Linked next prev cell rest after :=
  Iff.rfl

theorem frontOr_append
    (left right : List α)
    (after : α) :
    frontOr after (left ++ right) = frontOr (frontOr after right) left := by
  cases left <;> simp

theorem backOr_mem
    {cells : List α}
    (before : α)
    (nonempty : cells ≠ []) :
    backOr before cells ∈ cells := by
  induction cells generalizing before with
  | nil => exact (nonempty rfl).elim
  | cons cell rest induction =>
      by_cases empty : rest = []
      · simp [empty]
      · exact List.mem_cons_of_mem cell (induction cell empty)

/-- A nonempty sequence has the same last cell wherever it starts. -/
theorem backOr_append_of_ne_nil
    (before : α)
    (left : List α)
    {right : List α}
    (nonempty : right ≠ []) :
    backOr before (left ++ right) = backOr before right := by
  cases right with
  | nil => exact (nonempty rfl).elim
  | cons cell rest => simp

theorem frontOr_mem
    {cells : List α}
    (after : α)
    (nonempty : cells ≠ []) :
    frontOr after cells ∈ cells := by
  cases cells with
  | nil => exact (nonempty rfl).elim
  | cons cell rest => simp

theorem ne_frontOr_of_mem
    {null cell : α}
    {left right : List α}
    (nullLeft : null ∉ left)
    (apart : ∀ other ∈ left, other ∉ right)
    (member : cell ∈ left) :
    cell ≠ frontOr null right := by
  rintro rfl
  by_cases nonempty : right = []
  · subst nonempty
    exact nullLeft member
  · exact apart _ member (frontOr_mem null nonempty)

theorem ne_backOr_of_mem
    {null cell : α}
    {left right : List α}
    (nullRight : null ∉ right)
    (apart : ∀ other ∈ left, other ∉ right)
    (member : cell ∈ right) :
    cell ≠ backOr null left := by
  rintro rfl
  by_cases nonempty : left = []
  · subst nonempty
    exact nullRight member
  · exact apart _ (backOr_mem null nonempty) member

/-- A linked sequence is two linked sequences that meet. -/
theorem linked_append
    (next prev : α → α)
    (before after : α)
    (left right : List α) :
    Linked next prev before (left ++ right) after ↔
      Linked next prev before left (frontOr after right) ∧
        Linked next prev (backOr before left) right after := by
  induction left generalizing before with
  | nil => simp
  | cons cell rest induction =>
      rw [List.cons_append, linked_cons, linked_cons, induction cell,
        frontOr_append, backOr_cons]
      constructor
      · rintro ⟨back, forward, restLinked, rightLinked⟩
        exact ⟨⟨back, forward, restLinked⟩, rightLinked⟩
      · rintro ⟨⟨back, forward, restLinked⟩, rightLinked⟩
        exact ⟨back, forward, restLinked, rightLinked⟩

/-- Only the links of the cells themselves matter. -/
theorem Linked.congr
    {next prev next' prev' : α → α}
    {before after : α}
    {cells : List α}
    (linked : Linked next prev before cells after)
    (sameNext : ∀ cell ∈ cells, next' cell = next cell)
    (samePrev : ∀ cell ∈ cells, prev' cell = prev cell) :
    Linked next' prev' before cells after := by
  induction cells generalizing before with
  | nil => trivial
  | cons cell rest induction =>
      rcases linked with ⟨back, forward, restLinked⟩
      refine ⟨?_, ?_, ?_⟩
      · rw [samePrev cell (by simp), back]
      · rw [sameNext cell (by simp), forward]
      · exact induction restLinked
          (fun other member => sameNext other (by simp [member]))
          (fun other member => samePrev other (by simp [member]))

/-- Redirect the successor of the last cell. -/
theorem Linked.setAfter
    {next prev next' prev' : α → α}
    {before after after' : α}
    {cells : List α}
    (linked : Linked next prev before cells after)
    (nodup : cells.Nodup)
    (lastNext : ∀ cell ∈ cells, cell = backOr before cells →
      next' cell = after')
    (sameNext : ∀ cell ∈ cells, cell ≠ backOr before cells →
      next' cell = next cell)
    (samePrev : ∀ cell ∈ cells, prev' cell = prev cell) :
    Linked next' prev' before cells after' := by
  induction cells generalizing before with
  | nil => trivial
  | cons cell rest induction =>
      rcases linked with ⟨back, forward, restLinked⟩
      rcases List.nodup_cons.mp nodup with ⟨fresh, restNodup⟩
      simp only [backOr_cons] at lastNext sameNext
      refine ⟨?_, ?_, ?_⟩
      · rw [samePrev cell (by simp), back]
      · cases rest with
        | nil =>
            simpa using lastNext cell (by simp) (by simp)
        | cons second more =>
            have notLast : cell ≠ backOr cell (second :: more) := by
              intro equal
              exact fresh (equal ▸ backOr_mem cell (by simp))
            rw [sameNext cell (by simp) notLast, forward]
            rfl
      · exact induction restLinked restNodup
          (fun other member => lastNext other (by simp [member]))
          (fun other member => sameNext other (by simp [member]))
          (fun other member => samePrev other (by simp [member]))

/-- Redirect the predecessor of the first cell. -/
theorem Linked.setBefore
    {next prev next' prev' : α → α}
    {before before' after : α}
    {cells : List α}
    (linked : Linked next prev before cells after)
    (nodup : cells.Nodup)
    (firstPrev : ∀ cell ∈ cells, cell = frontOr after cells →
      prev' cell = before')
    (samePrev : ∀ cell ∈ cells, cell ≠ frontOr after cells →
      prev' cell = prev cell)
    (sameNext : ∀ cell ∈ cells, next' cell = next cell) :
    Linked next' prev' before' cells after := by
  cases cells with
  | nil => trivial
  | cons cell rest =>
      rcases linked with ⟨_, forward, restLinked⟩
      have fresh : cell ∉ rest := (List.nodup_cons.mp nodup).1
      refine ⟨firstPrev cell (by simp) (by simp), ?_, ?_⟩
      · rw [sameNext cell (by simp), forward]
      · refine restLinked.congr
          (fun other member => sameNext other (by simp [member]))
          (fun other member => samePrev other (by simp [member]) ?_)
        rintro rfl
        exact fresh member

/-- A sequence that runs to the end is determined by where it starts. -/
theorem Linked.unique
    {null before before' : α}
    {next prev prev' : α → α}
    {cells other : List α}
    (linked : Linked next prev before cells null)
    (linked' : Linked next prev' before' other null)
    (nullOut : null ∉ cells)
    (nullOut' : null ∉ other)
    (sameHead : frontOr null cells = frontOr null other) :
    cells = other := by
  induction cells generalizing before before' other with
  | nil =>
      cases other with
      | nil => rfl
      | cons first rest =>
          exact (nullOut' (by simpa using Or.inl sameHead)).elim
  | cons cell rest induction =>
      cases other with
      | nil => exact (nullOut (by simpa using Or.inl sameHead.symm)).elim
      | cons first more =>
          have same : cell = first := sameHead
          subst same
          rcases linked with ⟨_, forward, restLinked⟩
          rcases linked' with ⟨_, forward', restLinked'⟩
          rw [induction restLinked restLinked'
            (fun member => nullOut (by simp [member]))
            (fun member => nullOut' (by simp [member]))
            (forward.symm.trans forward')]

/-- A complete doubly linked list without repetition. -/
structure IsList
    (null : α)
    (next prev : α → α)
    (head : α)
    (cells : List α) :
    Prop where
  head_eq : head = frontOr null cells
  null_not_mem : null ∉ cells
  nodup : cells.Nodup
  linked : Linked next prev null cells null

namespace IsList

variable
  {null head head' : α}
  {next prev next' prev' : α → α}
  {cells left middle right : List α}
  {cell : α}

theorem empty
    (null : α)
    (next prev : α → α) :
    IsList null next prev null [] :=
  ⟨rfl, by simp, by simp, trivial⟩

theorem ne_null
    (list : IsList null next prev head cells)
    (member : cell ∈ cells) :
    cell ≠ null :=
  fun equal => list.null_not_mem (equal ▸ member)

theorem eq_nil_of_head_null
    (list : IsList null next prev null cells) : cells = [] := by
  cases cells with
  | nil => rfl
  | cons first rest =>
      have nullFirst : null = first := list.head_eq
      exact (list.null_not_mem (by simp [nullFirst])).elim

theorem head_mem
    (list : IsList null next prev head cells)
    (nonempty : head ≠ null) :
    head ∈ cells := by
  cases cells with
  | nil => exact (nonempty list.head_eq).elim
  | cons first rest => simp [list.head_eq]

/-- A list is unchanged by writes to cells outside it. -/
theorem congr
    (list : IsList null next prev head cells)
    (sameNext : ∀ cell ∈ cells, next' cell = next cell)
    (samePrev : ∀ cell ∈ cells, prev' cell = prev cell) :
    IsList null next' prev' head cells :=
  ⟨list.head_eq, list.null_not_mem, list.nodup,
    list.linked.congr sameNext samePrev⟩

/-- The successor of a listed cell. -/
theorem next_eq
    (list : IsList null next prev head (left ++ cell :: right)) :
    next cell = frontOr null right :=
  (((linked_append _ _ _ _ _ _).mp list.linked).2).2.1

/-- The predecessor of a listed cell. -/
theorem prev_eq
    (list : IsList null next prev head (left ++ cell :: right)) :
    prev cell = backOr null left :=
  (((linked_append _ _ _ _ _ _).mp list.linked).2).1

/-- The successor of the last cell of a block. -/
theorem next_block
    (list : IsList null next prev head (left ++ middle ++ right))
    (nonempty : middle ≠ []) :
    next (backOr null middle) = frontOr null right := by
  rcases List.eq_nil_or_concat middle with rfl | ⟨init, last, rfl⟩
  · exact (nonempty rfl).elim
  · have list' : IsList null next prev head
        ((left ++ init) ++ last :: right) := by
      simpa using list
    simpa using list'.next_eq

/-- The predecessor of the first cell of a block. -/
theorem prev_block
    (list : IsList null next prev head (left ++ middle ++ right))
    (nonempty : middle ≠ []) :
    prev (frontOr null middle) = backOr null left := by
  cases middle with
  | nil => exact (nonempty rfl).elim
  | cons first rest =>
      have list' : IsList null next prev head
          (left ++ first :: (rest ++ right)) := by
        simpa using list
      simpa using list'.prev_eq

/-- The head and the forward links determine the whole list. -/
theorem unique
    {other : List α}
    (list : IsList null next prev head cells)
    (list' : IsList null next prev' head other) :
    cells = other :=
  list.linked.unique list'.linked list.null_not_mem list'.null_not_mem
    (list.head_eq.symm.trans list'.head_eq)

/-- The head of an edited list, given what happens to its front part. -/
theorem head_edit
    {old new : List α}
    (oldHead : head = frontOr null (left ++ old))
    (emptyHead : left = [] → head' = frontOr null new)
    (sameHead : left ≠ [] → head' = head) :
    head' = frontOr null (left ++ new) := by
  cases left with
  | nil => exact emptyHead rfl
  | cons first rest =>
      rw [sameHead (List.cons_ne_nil first rest), oldHead]
      rfl

/--
Cut a block of cells out of the middle.  The two neighbours of the block now
name each other and every other link is as it was.
-/
theorem cut
    (list : IsList null next prev head (left ++ middle ++ right))
    (lastNext : ∀ cell ∈ left, cell = backOr null left →
      next' cell = frontOr null right)
    (sameNext : ∀ cell ∈ left ++ right, cell ≠ backOr null left →
      next' cell = next cell)
    (firstPrev : ∀ cell ∈ right, cell = frontOr null right →
      prev' cell = backOr null left)
    (samePrev : ∀ cell ∈ left ++ right, cell ≠ frontOr null right →
      prev' cell = prev cell)
    (emptyHead : left = [] → head' = frontOr null right)
    (sameHead : left ≠ [] → head' = head) :
    IsList null next' prev' head' (left ++ right) := by
  rcases list with ⟨oldHead, nullOut, nodup, linked⟩
  simp only [List.append_assoc, linked_append, List.mem_append, not_or,
    List.nodup_append] at *
  rcases linked with ⟨leftLinked, _, rightLinked⟩
  rcases nodup with ⟨leftNodup, ⟨_, rightNodup, _⟩, apart⟩
  rcases nullOut with ⟨nullLeft, _, nullRight⟩
  have leftRight : ∀ cell ∈ left, cell ∉ right := by
    intro cell inLeft inRight
    exact apart cell inLeft cell (Or.inr inRight) rfl
  refine ⟨head_edit oldHead emptyHead sameHead,
    by simp [nullLeft, nullRight], ?_, ?_⟩
  · exact List.nodup_append.mpr
      ⟨leftNodup, rightNodup, fun cell inLeft other inRight equal =>
        leftRight cell inLeft (equal ▸ inRight)⟩
  · rw [linked_append]
    constructor
    · exact leftLinked.setAfter leftNodup lastNext
        (fun cell member => sameNext cell (Or.inl member))
        (fun cell member => samePrev cell (Or.inl member)
          (ne_frontOr_of_mem nullLeft leftRight member))
    · exact rightLinked.setBefore rightNodup firstPrev
        (fun cell member => samePrev cell (Or.inr member))
        (fun cell member => sameNext cell (Or.inr member)
          (ne_backOr_of_mem nullRight leftRight member))

/-- Splice one fresh cell in between two parts of the list. -/
theorem splice
    (list : IsList null next prev head (left ++ right))
    (notNull : cell ≠ null)
    (fresh : cell ∉ left ++ right)
    (cellNext : next' cell = frontOr null right)
    (cellPrev : prev' cell = backOr null left)
    (lastNext : ∀ other ∈ left, other = backOr null left → next' other = cell)
    (sameNext : ∀ other ∈ left ++ right, other ≠ backOr null left →
      next' other = next other)
    (firstPrev : ∀ other ∈ right, other = frontOr null right →
      prev' other = cell)
    (samePrev : ∀ other ∈ left ++ right, other ≠ frontOr null right →
      prev' other = prev other)
    (emptyHead : left = [] → head' = cell)
    (sameHead : left ≠ [] → head' = head) :
    IsList null next' prev' head' (left ++ cell :: right) := by
  rcases list with ⟨oldHead, nullOut, nodup, linked⟩
  simp only [linked_append, List.mem_append, not_or, List.nodup_append] at *
  rcases linked with ⟨leftLinked, rightLinked⟩
  rcases nodup with ⟨leftNodup, rightNodup, apart⟩
  rcases nullOut with ⟨nullLeft, nullRight⟩
  rcases fresh with ⟨freshLeft, freshRight⟩
  have leftRight : ∀ other ∈ left, other ∉ right :=
    fun other inLeft inRight => apart other inLeft other inRight rfl
  refine ⟨head_edit oldHead emptyHead sameHead,
    by simp [nullLeft, nullRight, notNull.symm], ?_, ?_⟩
  · refine List.nodup_append.mpr
      ⟨leftNodup, List.nodup_cons.mpr ⟨freshRight, rightNodup⟩, ?_⟩
    rintro other inLeft _ inCons rfl
    rcases List.mem_cons.mp inCons with rfl | inRight
    · exact freshLeft inLeft
    · exact leftRight other inLeft inRight
  · rw [linked_append]
    refine ⟨?_, cellPrev, cellNext, ?_⟩
    · exact leftLinked.setAfter leftNodup lastNext
        (fun other member => sameNext other (Or.inl member))
        (fun other member => samePrev other (Or.inl member)
          (ne_frontOr_of_mem nullLeft leftRight member))
    · exact rightLinked.setBefore rightNodup firstPrev
        (fun other member => samePrev other (Or.inr member))
        (fun other member => sameNext other (Or.inr member)
          (ne_backOr_of_mem nullRight leftRight member))

end IsList

end ForsKernel.Lib.LinkedList
