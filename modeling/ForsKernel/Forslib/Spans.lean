import ForsKernel.Lib.LongestPrefix
import ForsKernel.Forslib.Strings

/-!
# Spans of characters

`strspn` and `strcspn` leave the loop through their second argument in its
first round, so that they only look at its first character, and count nothing
when it is empty.  `strpbrk` searches the whole argument.
-/

namespace ForsKernel.Forslib

open ForsKernel.Fs (CString)
open ForsKernel.Lib

/-! ## What the loops count -/

/-- The characters of `s` which are like the first one of `t`. -/
def spanOfFirst (a : CString) : CString → Nat
  | [] => 0
  | x :: _ => (a.takeWhile (· == x)).length

/-- The characters of `s` before the first character of `t`. -/
def spanToFirst (a : CString) : CString → Nat
  | [] => 0
  | x :: _ => (a.takeWhile (· != x)).length

section

variable
  {s t : Buffer}
  {a b : CString}

/-- A loop which neither counts nor returns goes through the string. -/
theorem spanLoop_idle
    {inner : UInt8 → Nat → Except Fault (Bool × Nat)}
    (idle : ∀ c n, inner c n = .ok (false, n))
    (terminated : Terminated s a)
    (n : Nat) :
    spanLoop inner s n = .ok n := by
  induction s generalizing a with
  | nil => exact (not_terminated_nil a terminated).elim
  | cons c s induction =>
      cases a with
      | nil => rw [spanLoop, if_pos terminated.head]
      | cons x a =>
          rcases terminated.tail with ⟨nonzero, rfl, rest⟩
          rw [spanLoop, if_neg nonzero, idle]
          exact induction rest

/-- A loop which counts as long as a property holds measures a prefix. -/
theorem spanLoop_counting
    {inner : UInt8 → Nat → Except Fault (Bool × Nat)}
    {p : UInt8 → Bool}
    (counting : ∀ c n, inner c n =
      if p c then .ok (false, n + 1) else .ok (true, n))
    (terminated : Terminated s a)
    (n : Nat) :
    spanLoop inner s n = .ok (n + (a.takeWhile p).length) := by
  induction s generalizing a n with
  | nil => exact (not_terminated_nil a terminated).elim
  | cons c s induction =>
      cases a with
      | nil =>
          rw [spanLoop, if_pos terminated.head]
          rfl
      | cons y a =>
          rcases terminated.tail with ⟨nonzero, rfl, rest⟩
          rw [spanLoop, if_neg nonzero, counting]
          by_cases holds : p c
          · simp [holds, induction rest, Nat.add_assoc, Nat.add_comm 1]
          · simp [holds]

theorem strspn_eq
    (isA : Terminated s a)
    (isB : Terminated t b) :
    strspn s t = .ok (spanOfFirst a b) := by
  rw [strspn, isB.strlen, ok_bind]
  cases b with
  | nil => exact spanLoop_idle (fun c n => rfl) isA 0
  | cons x b =>
      cases t with
      | nil => exact (not_terminated_nil _ isB).elim
      | cons y t =>
          rcases isB.tail with ⟨_, rfl, _⟩
          have counting : ∀ c n, strspnInner (y :: t) (y :: b).length c n =
              if c == y then .ok (false, n + 1) else .ok (true, n) := by
            intro c n
            simp [strspnInner]
          rw [spanLoop_counting counting isA, spanOfFirst, Nat.zero_add]

theorem strcspn_eq
    (isA : Terminated s a)
    (isB : Terminated t b) :
    strcspn s t = .ok (spanToFirst a b) := by
  rw [strcspn, isB.strlen, ok_bind]
  cases b with
  | nil => exact spanLoop_idle (fun c n => rfl) isA 0
  | cons x b =>
      cases t with
      | nil => exact (not_terminated_nil _ isB).elim
      | cons y t =>
          rcases isB.tail with ⟨_, rfl, _⟩
          have counting : ∀ c n, strcspnInner (y :: t) (y :: b).length c n =
              if c != y then .ok (false, n + 1) else .ok (true, n) := by
            intro c n
            by_cases same : c = y
            · simp [strcspnInner, same]
            · simp [strcspnInner, same]
          rw [spanLoop_counting counting isA, spanToFirst, Nat.zero_add]

theorem Terminated.occursIn
    (terminated : Terminated t b)
    (c : UInt8) :
    occursIn c t b.length = .ok (decide (c ∈ b)) := by
  induction t generalizing b with
  | nil => exact (not_terminated_nil b terminated).elim
  | cons x t induction =>
      cases b with
      | nil => simp [Forslib.occursIn]
      | cons y b =>
          rcases terminated.tail with ⟨_, rfl, rest⟩
          rw [List.length_cons, Forslib.occursIn, induction rest]
          by_cases same : c = x
          · simp [same]
          · simp [same]

/-- `strpbrk` stops at the first character which occurs, if there is one. -/
theorem strpbrk_eq
    (isA : Terminated s a)
    (isB : Terminated t b) :
    strpbrk s t = .ok (if (a.takeWhile (· ∉ b)).length < a.length then
      some (a.takeWhile (· ∉ b)).length else none) := by
  rw [strpbrk, isB.strlen, ok_bind]
  induction s generalizing a with
  | nil => exact (not_terminated_nil a isA).elim
  | cons c s induction =>
      cases a with
      | nil => simp [strpbrkFrom, isA.head]
      | cons y a =>
          rcases isA.tail with ⟨nonzero, rfl, rest⟩
          rw [strpbrkFrom, if_neg nonzero, isB.occursIn]
          by_cases inside : c ∈ b
          · simp [inside]
          · simp [inside, induction rest, Except.map]

end

/-! ## When the spans are right -/

/-- The first character unlike the first one of `b` does not occur in `b`. -/
def SpansAlike (a : CString) : CString → Prop
  | [] => True
  | x :: b => ∀ c, (a.dropWhile (· == x)).head? = some c → c ∉ x :: b

/-- The first character which occurs in `b` is the first one of `b`. -/
def BreaksAlike (a : CString) : CString → Prop
  | [] => a = []
  | x :: b => ∀ c, (a.dropWhile (· ∉ x :: b)).head? = some c → c = x

theorem spanOfFirst_iff (a b : CString) :
    LongestPrefix (fun c => c ∈ b) a (spanOfFirst a b) ↔ SpansAlike a b := by
  rw [longestPrefix_iff]
  cases b with
  | nil =>
      cases a with
      | nil => simp [spanOfFirst, SpansAlike]
      | cons c a => simp [spanOfFirst, SpansAlike]
  | cons x b =>
      rw [spanOfFirst, SpansAlike, length_takeWhile_eq_iff]
      · simp only [decide_eq_false_iff_not]
      · intro c first
        simp [beq_iff_eq.mp first]

theorem spanToFirst_iff (a b : CString) :
    LongestPrefix (fun c => c ∉ b) a (spanToFirst a b) ↔
      BreaksAlike a b := by
  rw [longestPrefix_iff]
  cases b with
  | nil =>
      have all : a.takeWhile (fun c => decide (c ∉ ([] : CString))) = a := by
        simp
      rw [all, spanToFirst, BreaksAlike, eq_comm, List.length_eq_zero_iff]
  | cons x b =>
      rw [spanToFirst, BreaksAlike, eq_comm, length_takeWhile_eq_iff]
      · simp only [bne_eq_false_iff_eq]
      · intro c outside
        simp only [decide_eq_true_eq, List.mem_cons, not_or] at outside
        simp [outside.1]

/-- The span functions of the library stay inside, and answer so. -/
def Measures
    (result : Except Fault Nat)
    (right : Nat → Prop) :
    Prop :=
  ∃ n, result = .ok n ∧ right n

theorem measures_ok
    {n : Nat}
    {right : Nat → Prop} :
    Measures (.ok n) right ↔ right n := by
  constructor
  · rintro ⟨m, same, holds⟩
    cases same
    exact holds
  · intro holds
    exact ⟨n, rfl, holds⟩

/-- `strpbrk` points to where `strcspn` stops, unless that is the end. -/
def BreaksAt (s t : Buffer) : Prop :=
  ∃ n l, strcspn s t = .ok n ∧ strlen s = .ok l ∧
    strpbrk s t = .ok (if n < l then some n else none)

theorem spanToFirst_le (a b : CString) : spanToFirst a b ≤ a.length := by
  cases b with
  | nil => exact Nat.zero_le _
  | cons x b => exact (longestPrefix_takeWhile _ a).le

theorem breaksAt_iff
    {s t : Buffer}
    {a b : CString}
    (isA : Terminated s a)
    (isB : Terminated t b) :
    BreaksAt s t ↔ BreaksAlike a b := by
  rw [← spanToFirst_iff, longestPrefix_iff]
  have le := spanToFirst_le a b
  have le' := (longestPrefix_takeWhile (fun c => c ∉ b) a).le
  constructor
  · rintro ⟨n, l, stops, length, points⟩
    cases (strcspn_eq isA isB).symm.trans stops
    cases isA.strlen.symm.trans length
    have same := (strpbrk_eq isA isB).symm.trans points
    have answers := Except.ok.inj same
    split at answers
    · split at answers
      · exact (Option.some.inj answers).symm
      · cases answers
    · split at answers
      · cases answers
      · omega
  · intro same
    refine ⟨_, _, strcspn_eq isA isB, isA.strlen, ?_⟩
    rw [strpbrk_eq isA isB, same]

/--
`strspn` and `strcspn` measure the longest prefixes just when the first
character at which the prefix ends is decided by the first one of the set,
and `strpbrk`, which is right in itself, agrees with `strcspn` just then.
-/
theorem spans_iff
    {s t : Buffer}
    {a b : CString}
    (isA : Terminated s a)
    (isB : Terminated t b) :
    (Measures (strspn s t) (LongestPrefix (fun c => c ∈ b) a) ↔
        SpansAlike a b) ∧
      (Measures (strcspn s t) (LongestPrefix (fun c => c ∉ b) a) ↔
        BreaksAlike a b) ∧
      (BreaksAt s t ↔ BreaksAlike a b) ∧
      ∃ n, LongestPrefix (fun c => c ∉ b) a n ∧
        strpbrk s t = .ok (if n < a.length then some n else none) := by
  refine ⟨?_, ?_, breaksAt_iff isA isB, ?_⟩
  · rw [strspn_eq isA isB, measures_ok, spanOfFirst_iff]
  · rw [strcspn_eq isA isB, measures_ok, spanToFirst_iff]
  · exact ⟨_, longestPrefix_takeWhile _ a, strpbrk_eq isA isB⟩

/-- The string `aab` and the set `ac`. -/
theorem spans_iff_letters :
    (Measures (strspn [97, 97, 98, 0] [97, 99, 0])
        (LongestPrefix (fun c : UInt8 => c ∈ [97, 99]) [97, 97, 98]) ↔
        SpansAlike [97, 97, 98] [97, 99]) ∧
      (Measures (strcspn [97, 97, 98, 0] [97, 99, 0])
          (LongestPrefix (fun c : UInt8 => c ∉ [97, 99]) [97, 97, 98]) ↔
        BreaksAlike [97, 97, 98] [97, 99]) ∧
      (BreaksAt [97, 97, 98, 0] [97, 99, 0] ↔
        BreaksAlike [97, 97, 98] [97, 99]) ∧
      ∃ n, LongestPrefix (fun c : UInt8 => c ∉ [97, 99]) [97, 97, 98] n ∧
        strpbrk [97, 97, 98, 0] [97, 99, 0] =
          .ok (if n < 3 then some n else none) :=
  @spans_iff [97, 97, 98, 0] [97, 99, 0] [97, 97, 98] [97, 99]
    ⟨by decide, [], rfl⟩ ⟨by decide, [], rfl⟩

/-- Both spans of `b` with the set `ab`, and the second one with no set. -/
theorem spans_short :
    strspn [98, 0] [97, 98, 0] = .ok 0 ∧
      ¬ LongestPrefix (fun c : UInt8 => c ∈ [97, 98]) [98] 0 ∧
      strcspn [98, 0] [97, 98, 0] = .ok 1 ∧
      ¬ LongestPrefix (fun c : UInt8 => c ∉ [97, 98]) [98] 1 ∧
      strcspn [98, 0] [0] = .ok 0 ∧
      ¬ LongestPrefix (fun c : UInt8 => c ∉ []) [98] 0 ∧
      strpbrk [98, 0] [0] = .ok none := by
  simp only [longestPrefix_iff]
  decide

end ForsKernel.Forslib
