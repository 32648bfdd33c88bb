import Mathlib.Data.Finset.Card
import Mathlib.Data.Finset.Range

/-!
# Counting the entries of a table

A table has entries with the indices below a bound, and `tally` is the number
of those with a property.  When a single entry changes, the tally changes by
one or not at all.
-/

namespace ForsKernel.Lib.Tally

variable
  {α : Type*}
  {bound : Nat}
  {p : α → Prop}
  [DecidablePred p]
  {table table' : Nat → α}

/-- The number of entries below `bound` with the property. -/
def tally
    (bound : Nat)
    (p : α → Prop)
    [DecidablePred p]
    (table : Nat → α) :
    Nat :=
  ((Finset.range bound).filter fun i => p (table i)).card

theorem tally_le
    (bound : Nat)
    (p : α → Prop)
    [DecidablePred p]
    (table : Nat → α) :
    tally bound p table ≤ bound := by
  have most := Finset.card_filter_le (Finset.range bound)
    fun i => p (table i)
  rwa [Finset.card_range] at most

theorem tally_congr (same : ∀ i < bound, p (table' i) ↔ p (table i)) :
    tally bound p table' = tally bound p table := by
  rw [tally, tally]
  congr 1
  apply Finset.filter_congr
  intro i member
  exact same i (Finset.mem_range.mp member)

/-- Nothing is counted just when no entry has the property. -/
theorem tally_eq_zero :
    tally bound p table = 0 ↔ ∀ i < bound, ¬ p (table i) := by
  rw [tally, Finset.card_eq_zero, Finset.filter_eq_empty_iff]
  simp only [Finset.mem_range]

/-- One entry more has the property. -/
theorem tally_gain
    {i : Nat}
    (lt : i < bound)
    (before : ¬ p (table i))
    (now : p (table' i))
    (others : ∀ j, j ≠ i → (p (table' j) ↔ p (table j))) :
    tally bound p table' = tally bound p table + 1 := by
  have whole : ((Finset.range bound).filter fun j => p (table' j)) =
      insert i ((Finset.range bound).filter fun j => p (table j)) := by
    ext j
    rw [Finset.mem_insert, Finset.mem_filter, Finset.mem_filter]
    by_cases same : j = i
    · subst same
      simp [now, lt]
    · simp [others j same, same]
  have absent : i ∉ (Finset.range bound).filter fun j => p (table j) := by
    intro member
    exact before (Finset.mem_filter.mp member).2
  rw [tally, tally, whole, Finset.card_insert_of_notMem absent]

/-- One entry less has the property. -/
theorem tally_lose
    {i : Nat}
    (lt : i < bound)
    (before : p (table i))
    (now : ¬ p (table' i))
    (others : ∀ j, j ≠ i → (p (table' j) ↔ p (table j))) :
    tally bound p table = tally bound p table' + 1 :=
  tally_gain lt now before fun j different => (others j different).symm

end ForsKernel.Lib.Tally
