import Mathlib.Data.Nat.Basic
import Mathlib.Logic.Function.Basic

/-!
# Copies from the front

A memory is copied within itself one place after the other.  If the copy begins
inside of what is copied, it reads its own results again and so repeats the
places between the two beginnings.
-/

namespace ForsKernel.Lib.ForwardCopy

variable {β : Type*}

/-- The place whose contents arrive `i` places behind the destination. -/
def origin (dest src i : Nat) : Nat :=
  if src < dest then src + i % (dest - src) else src + i

/-- The memory after `n` places have been copied. -/
def forward
    (dest src : Nat)
    (mem : Nat → β) :
    Nat → Nat → β
  | 0 => mem
  | n + 1 =>
      Function.update (forward dest src mem n) (dest + n)
        (forward dest src mem n (src + n))

section

variable
  {dest src : Nat}
  {mem : Nat → β}

theorem origin_of_le
    (le : dest ≤ src)
    (i : Nat) :
    origin dest src i = src + i :=
  if_neg (Nat.not_lt.mpr le)

/-- Before it reaches the copy, the source is as it was. -/
theorem origin_of_lt
    {i : Nat}
    (before : src + i < dest) :
    origin dest src i = src + i := by
  rw [origin, if_pos (by omega), Nat.mod_eq_of_lt (by omega)]

/-- What is copied from the copy was copied before. -/
theorem origin_add
    (lt : src < dest)
    (i : Nat) :
    origin dest src (i + (dest - src)) = origin dest src i := by
  rw [origin, origin, if_pos lt, if_pos lt, Nat.add_mod_right]

theorem forward_outside
    {n address : Nat}
    (outside : address < dest ∨ dest + n ≤ address) :
    forward dest src mem n address = mem address := by
  induction n with
  | zero => rfl
  | succ n induction =>
      rw [forward, Function.update_of_ne (by omega)]
      exact induction (by omega)

/-- What stands at the destination, and what is read next. -/
theorem forward_spec (n : Nat) :
    (∀ i < n, forward dest src mem n (dest + i) =
        mem (origin dest src i)) ∧
      forward dest src mem n (src + n) = mem (origin dest src n) := by
  have next (n : Nat) (inside : ∀ i < n, forward dest src mem n (dest + i) =
      mem (origin dest src i)) :
      forward dest src mem n (src + n) = mem (origin dest src n) := by
    by_cases le : dest ≤ src
    · rw [forward_outside (by omega), origin_of_le le]
    · by_cases before : src + n < dest
      · rw [forward_outside (.inl before), origin_of_lt before]
      · have again : src + n = dest + (n - (dest - src)) := by omega
        have place : n - (dest - src) + (dest - src) = n := by omega
        rw [again, inside _ (by omega), ← origin_add (by omega), place]
  induction n with
  | zero => exact ⟨fun i lt => absurd lt (Nat.not_lt_zero i),
      next 0 fun i lt => absurd lt (Nat.not_lt_zero i)⟩
  | succ n induction =>
      have inside : ∀ i < n + 1, forward dest src mem (n + 1) (dest + i) =
          mem (origin dest src i) := by
        intro i lt
        by_cases last : i = n
        · rw [last, forward, Function.update_self]
          exact induction.2
        · rw [forward, Function.update_of_ne (by omega)]
          exact induction.1 i (by omega)
      exact ⟨inside, next (n + 1) inside⟩

theorem forward_inside
    {n i : Nat}
    (lt : i < n) :
    forward dest src mem n (dest + i) = mem (origin dest src i) :=
  (forward_spec n).1 i lt

theorem forward_source (n : Nat) :
    forward dest src mem n (src + n) = mem (origin dest src n) :=
  (forward_spec n).2

end

end ForsKernel.Lib.ForwardCopy
