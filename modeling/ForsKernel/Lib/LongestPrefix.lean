import Mathlib.Data.List.Basic
import Mathlib.Data.List.TakeWhile

/-!
# Longest prefixes

The longest prefix of a list whose elements all have a property, as a loop
finds it which stops at the first element without the property.
-/

namespace ForsKernel.Lib

variable {α : Type*}

/-- The longest prefix whose elements all have the property is so long. -/
structure LongestPrefix
    (p : α → Bool)
    (a : List α)
    (n : Nat) :
    Prop where
  le : n ≤ a.length
  holds : ∀ b ∈ a.take n, p b
  longest : ∀ m ≤ a.length, (∀ b ∈ a.take m, p b) → m ≤ n

theorem longestPrefix_takeWhile
    (p : α → Bool)
    (a : List α) :
    LongestPrefix p a (a.takeWhile p).length := by
  induction a with
  | nil => exact ⟨by simp, by simp, fun m le _ => by simpa using le⟩
  | cons b a induction =>
      by_cases first : p b
      · rw [List.takeWhile_cons_of_pos first, List.length_cons]
        refine ⟨Nat.succ_le_succ induction.le, ?_, ?_⟩
        · rw [List.take_succ_cons]
          intro c inside
          rcases List.mem_cons.mp inside with rfl | later
          · exact first
          · exact induction.holds c later
        · intro m le all
          cases m with
          | zero => omega
          | succ m =>
              rw [List.take_succ_cons] at all
              have rest := induction.longest m (Nat.le_of_succ_le_succ le)
                fun c inside => all c (List.mem_cons_of_mem _ inside)
              omega
      · rw [List.takeWhile_cons_of_neg first]
        refine ⟨Nat.zero_le _, by simp, ?_⟩
        intro m le all
        cases m with
        | zero => exact Nat.le_refl _
        | succ m => exact (first (all b (by simp))).elim

theorem longestPrefix_iff
    {p : α → Bool}
    {a : List α}
    {n : Nat} :
    LongestPrefix p a n ↔ n = (a.takeWhile p).length := by
  have prefix' := longestPrefix_takeWhile p a
  constructor
  · intro own
    exact Nat.le_antisymm (prefix'.longest n own.le own.holds)
      (own.longest _ prefix'.le prefix'.holds)
  · rintro rfl
    exact prefix'

/-- A stronger property ends where the weaker one does, or before it. -/
theorem length_takeWhile_eq_iff
    {p q : α → Bool}
    (stronger : ∀ b, p b → q b)
    (a : List α) :
    (a.takeWhile p).length = (a.takeWhile q).length ↔
      ∀ b, (a.dropWhile p).head? = some b → q b = false := by
  induction a with
  | nil => simp
  | cons b a induction =>
      by_cases first : p b
      · simp [first, stronger b first, induction]
      · by_cases weak : q b
        · simp [first, weak]
        · simp [first, weak]

end ForsKernel.Lib
