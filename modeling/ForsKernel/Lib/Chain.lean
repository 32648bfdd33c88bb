import Mathlib.Data.List.Basic

/-!
# Singly linked lists in memory

A chain starts at a head, follows one link per cell and ends at a null cell.
The loop which looks for a cell of a chain carries a bound on its number of
turns, so that a list which runs into itself is a search without an answer.
-/

namespace ForsKernel.Lib.Chain

variable {α : Type*}

/-- Following `next` from `head` visits exactly these cells. -/
def IsChain
    (null : α)
    (next : α → α) :
    α → List α → Prop
  | head, [] => head = null
  | head, cell :: rest =>
      head = cell ∧ cell ≠ null ∧ IsChain null next (next cell) rest

section

variable
  {null head : α}
  {next next' : α → α}
  {cells : List α}

@[simp]
theorem isChain_nil : IsChain null next head [] ↔ head = null :=
  Iff.rfl

@[simp]
theorem isChain_cons {cell : α} :
    IsChain null next head (cell :: cells) ↔
      head = cell ∧ cell ≠ null ∧ IsChain null next (next cell) cells :=
  Iff.rfl

/-- Only the links of the cells themselves matter. -/
theorem IsChain.congr
    (chain : IsChain null next head cells)
    (same : ∀ cell ∈ cells, next' cell = next cell) :
    IsChain null next' head cells := by
  induction cells generalizing head with
  | nil => exact chain
  | cons cell rest induction =>
      rcases chain with ⟨start, notNull, tail⟩
      refine ⟨start, notNull, ?_⟩
      rw [same cell (by simp)]
      exact induction tail fun other member =>
        same other (List.mem_cons_of_mem cell member)

theorem IsChain.ne_null (chain : IsChain null next head cells) :
    ∀ cell ∈ cells, cell ≠ null := by
  induction cells generalizing head with
  | nil => simp
  | cons first rest induction =>
      rcases chain with ⟨_, notNull, tail⟩
      intro cell member
      rcases List.mem_cons.mp member with rfl | inRest
      · exact notNull
      · exact induction tail cell inRest

/-- A chain has no cells just when its head is null. -/
theorem IsChain.eq_nil_iff (chain : IsChain null next head cells) :
    cells = [] ↔ head = null := by
  cases cells with
  | nil => simpa using chain
  | cons cell rest =>
      rcases chain with ⟨rfl, notNull, _⟩
      simp [notNull]

/-- The head and the links determine the chain. -/
theorem IsChain.unique
    {other : List α}
    (chain : IsChain null next head cells)
    (chain' : IsChain null next head other) :
    cells = other := by
  induction cells generalizing head other with
  | nil => exact ((chain'.eq_nil_iff).mpr chain).symm
  | cons cell rest induction =>
      rcases chain with ⟨rfl, notNull, tail⟩
      cases other with
      | nil => exact (notNull chain').elim
      | cons cell' rest' =>
          rcases chain' with ⟨rfl, _, tail'⟩
          rw [induction tail tail']

/-- From each of its cells on, a chain goes on as the rest of it. -/
theorem IsChain.suffix
    {before rest : List α}
    {cell : α}
    (chain : IsChain null next head (before ++ cell :: rest)) :
    IsChain null next cell (cell :: rest) := by
  induction before generalizing head with
  | nil =>
      rcases chain with ⟨rfl, notNull, tail⟩
      exact ⟨rfl, notNull, tail⟩
  | cons first before induction => exact induction chain.2.2

/-- A chain which ends visits no cell twice. -/
theorem IsChain.nodup (chain : IsChain null next head cells) :
    cells.Nodup := by
  induction cells generalizing head with
  | nil => exact List.nodup_nil
  | cons cell rest induction =>
      rcases chain with ⟨rfl, notNull, tail⟩
      refine List.nodup_cons.mpr ⟨?_, induction tail⟩
      intro member
      rcases List.append_of_mem member with ⟨before, after, rfl⟩
      have again := tail.suffix
      have whole : IsChain null next head (head :: (before ++ head :: after)) :=
        ⟨rfl, notNull, tail⟩
      have same := congrArg List.length (whole.unique again)
      simp only [List.length_cons, List.length_append] at same
      omega

end

section

variable [DecidableEq α]

/-- The cells from `head` on, up to a number of them. -/
def collect
    (null : α)
    (next : α → α) :
    Nat → α → List α
  | 0, _ => []
  | fuel + 1, cell =>
      if cell = null then []
      else cell :: collect null next fuel (next cell)

theorem collect_eq
    {null head : α}
    {next : α → α}
    {cells : List α}
    {fuel : Nat}
    (chain : IsChain null next head cells)
    (enough : cells.length < fuel) :
    collect null next fuel head = cells := by
  induction cells generalizing head fuel with
  | nil =>
      cases fuel with
      | zero => exact (Nat.not_lt_zero _ enough).elim
      | succ fuel => exact if_pos chain
  | cons cell rest induction =>
      cases fuel with
      | zero => exact (Nat.not_lt_zero _ enough).elim
      | succ fuel =>
          rcases chain with ⟨rfl, notNull, tail⟩
          rw [collect, if_neg notNull]
          apply congrArg (List.cons head)
          exact induction tail (by simpa using enough)

/-- Visit the cells from `head` on until one of them is a hit. -/
def search
    (null : α)
    (next : α → α)
    (hit : α → Bool) :
    Nat → α → Option α
  | 0, _ => none
  | fuel + 1, cell =>
      if cell = null then some null
      else if hit cell then some cell
      else search null next hit fuel (next cell)

/-- The search ends at the first hit, or at the end of the chain. -/
theorem search_eq
    {null head : α}
    {next : α → α}
    {hit : α → Bool}
    {cells : List α}
    {fuel : Nat}
    (chain : IsChain null next head cells)
    (enough : cells.length < fuel) :
    search null next hit fuel head = some ((cells.find? hit).getD null) := by
  induction cells generalizing head fuel with
  | nil =>
      cases fuel with
      | zero => exact (Nat.not_lt_zero _ enough).elim
      | succ fuel =>
          rw [isChain_nil] at chain
          simp [search, chain]
  | cons cell rest induction =>
      cases fuel with
      | zero => exact (Nat.not_lt_zero _ enough).elim
      | succ fuel =>
          rcases chain with ⟨rfl, notNull, tail⟩
          rw [search, if_neg notNull]
          by_cases found : hit head
          · simp [found]
          · rw [if_neg found, List.find?_cons_of_neg found]
            apply induction tail
            simpa using enough

end

end ForsKernel.Lib.Chain
