import Mathlib.Data.List.Range
import Mathlib.Data.Nat.ModEq
import Mathlib.Logic.Function.Basic

/-!
# Ring buffers

A queue in a circular array: entries are stored at the tail and taken from the
head, and a counter of free cells tells a full ring from an empty one.
`contents` is the queue which the ring stands for.
-/

namespace ForsKernel.Lib

/-- A circular array with the positions of both ends. -/
structure RingBuffer (α : Type*) where
  cells : Nat → α
  head : Nat
  tail : Nat
  spaceLeft : Nat

variable {α : Type*}

namespace RingBuffer

/-- Store an entry at the tail. -/
def push
    (capacity : Nat)
    (ring : RingBuffer α)
    (entry : α) :
    RingBuffer α where
  cells := Function.update ring.cells ring.tail entry
  head := ring.head
  tail := (ring.tail + 1) % capacity
  spaceLeft := ring.spaceLeft - 1

/-- Move the head past an entry. -/
def pop
    (capacity : Nat)
    (ring : RingBuffer α) :
    RingBuffer α where
  cells := ring.cells
  head := (ring.head + 1) % capacity
  tail := ring.tail
  spaceLeft := ring.spaceLeft + 1

/-- The positions and the counter agree. -/
structure Wf
    (capacity : Nat)
    (ring : RingBuffer α) :
    Prop where
  head_lt : ring.head < capacity
  space_le : ring.spaceLeft ≤ capacity
  tail_eq : ring.tail = (ring.head + (capacity - ring.spaceLeft)) % capacity

/-- The entries from head to tail. -/
def contents
    (capacity : Nat)
    (ring : RingBuffer α) :
    List α :=
  (List.range (capacity - ring.spaceLeft)).map fun offset =>
    ring.cells ((ring.head + offset) % capacity)

section

variable
  {capacity : Nat}
  {ring : RingBuffer α}

theorem contents_eq_nil (empty : ring.spaceLeft = capacity) :
    ring.contents capacity = [] := by
  simp [contents, empty]

theorem length_contents :
    (ring.contents capacity).length = capacity - ring.spaceLeft := by
  simp [contents]

theorem Wf.push
    (wf : ring.Wf capacity)
    (entry : α)
    (room : ring.spaceLeft ≠ 0) :
    (ring.push capacity entry).Wf capacity := by
  have le := wf.space_le
  refine ⟨wf.head_lt, ?_, ?_⟩
  · show ring.spaceLeft - 1 ≤ capacity
    omega
  · show (ring.tail + 1) % capacity =
      (ring.head + (capacity - (ring.spaceLeft - 1))) % capacity
    have grown : capacity - (ring.spaceLeft - 1) =
        capacity - ring.spaceLeft + 1 := by omega
    rw [wf.tail_eq, Nat.mod_add_mod, grown, Nat.add_assoc]

theorem Wf.pop
    (wf : ring.Wf capacity)
    (nonempty : ring.spaceLeft ≠ capacity) :
    (ring.pop capacity).Wf capacity := by
  have le := wf.space_le
  refine ⟨Nat.mod_lt _ (by have := wf.head_lt; omega), ?_, ?_⟩
  · show ring.spaceLeft + 1 ≤ capacity
    omega
  · show ring.tail =
      ((ring.head + 1) % capacity + (capacity - (ring.spaceLeft + 1))) %
        capacity
    have shrunk : 1 + (capacity - (ring.spaceLeft + 1)) =
        capacity - ring.spaceLeft := by omega
    rw [wf.tail_eq, Nat.mod_add_mod, Nat.add_assoc, shrunk]

/-- Cells before the tail are not the tail. -/
theorem Wf.ne_tail
    (wf : ring.Wf capacity)
    {offset : Nat}
    (room : ring.spaceLeft ≠ 0)
    (inside : offset < capacity - ring.spaceLeft) :
    (ring.head + offset) % capacity ≠ ring.tail := by
  rw [wf.tail_eq]
  intro same
  have headLt := wf.head_lt
  have congruent : offset % capacity =
      (capacity - ring.spaceLeft) % capacity :=
    Nat.ModEq.add_left_cancel' ring.head same
  rw [Nat.mod_eq_of_lt (by omega), Nat.mod_eq_of_lt (by omega)] at congruent
  omega

/-- An entry joins at the back. -/
theorem contents_push
    (wf : ring.Wf capacity)
    (entry : α)
    (room : ring.spaceLeft ≠ 0) :
    (ring.push capacity entry).contents capacity =
      ring.contents capacity ++ [entry] := by
  have le := wf.space_le
  have grown : capacity - (ring.spaceLeft - 1) =
      capacity - ring.spaceLeft + 1 := by omega
  rw [contents, contents]
  show (List.range (capacity - (ring.spaceLeft - 1))).map (fun offset =>
      Function.update ring.cells ring.tail entry
        ((ring.head + offset) % capacity)) = _
  rw [grown, List.range_succ, List.map_append, List.map_singleton,
    ← wf.tail_eq, Function.update_self]
  apply congrArg (· ++ [entry])
  apply List.map_congr_left
  intro offset inside
  exact Function.update_of_ne
    (wf.ne_tail room (List.mem_range.mp inside)) ..

/-- The entry at the head leaves. -/
theorem contents_pop
    (wf : ring.Wf capacity)
    (nonempty : ring.spaceLeft ≠ capacity) :
    ring.contents capacity =
      ring.cells ring.head :: (ring.pop capacity).contents capacity := by
  have le := wf.space_le
  have shrunk : capacity - ring.spaceLeft =
      (capacity - (ring.spaceLeft + 1)) + 1 := by omega
  rw [contents, shrunk, List.range_succ_eq_map, List.map_cons, Nat.add_zero,
    Nat.mod_eq_of_lt wf.head_lt, List.map_map]
  apply congrArg (List.cons (ring.cells ring.head))
  apply List.map_congr_left
  intro offset _
  show ring.cells ((ring.head + (offset + 1)) % capacity) =
    ring.cells (((ring.head + 1) % capacity + offset) % capacity)
  rw [Nat.mod_add_mod, Nat.add_assoc, Nat.add_comm offset 1]

end

end RingBuffer

end ForsKernel.Lib
