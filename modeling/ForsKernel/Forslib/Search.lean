import ForsKernel.Forslib.Strings

/-!
# Searching for a character

The searches compare the signed value of a character with a key which is not
negative, so that a key from 128 on is never found.  The searches through
strings leave out the terminator, and `memrchr` gives up on objects which are
so large that its counter starts below zero.
-/

namespace ForsKernel.Forslib

open ForsKernel.Fs (CString)

/-! ## What is looked for -/

/-- The key is not among the first `n` bytes. -/
def Absent
    (m : Buffer)
    (c : UInt8)
    (n : Nat) :
    Prop :=
  ∀ i < n, m[i]? ≠ some c

/-- The offset of the first such byte among the first `n`, or none. -/
def IsFirst
    (m : Buffer)
    (c : UInt8)
    (n : Nat) :
    Option Nat → Prop
  | none => Absent m c n
  | some d => d < n ∧ m[d]? = some c ∧ ∀ i < d, m[i]? ≠ some c

/-- The offset of the last such byte among the first `n`, or none. -/
def IsLast
    (m : Buffer)
    (c : UInt8)
    (n : Nat) :
    Option Nat → Prop
  | none => Absent m c n
  | some d => d < n ∧ m[d]? = some c ∧ ∀ i, d < i → i < n → m[i]? ≠ some c

/-- The search stays inside of the object, and answers as it should. -/
def Finds
    (result : Except Fault (Option Nat))
    (right : Option Nat → Prop) :
    Prop :=
  ∃ answer, result = .ok answer ∧ right answer

theorem finds_ok
    {answer : Option Nat}
    {right : Option Nat → Prop} :
    Finds (.ok answer) right ↔ right answer := by
  constructor
  · rintro ⟨other, same, holds⟩
    cases same
    exact holds
  · intro holds
    exact ⟨answer, rfl, holds⟩

theorem absent_iff_not_mem_take
    {m : Buffer}
    {c : UInt8}
    {n : Nat} :
    Absent m c n ↔ c ∉ m.take n := by
  rw [List.mem_iff_getElem?, not_exists]
  constructor
  · intro absent i here
    have lt := (List.getElem?_eq_some_iff.mp here).1
    rw [List.length_take] at lt
    rw [List.getElem?_take_of_lt (by omega)] at here
    exact absent i (by omega) here
  · intro missing i lt here
    apply missing i
    rw [List.getElem?_take_of_lt lt]
    exact here

theorem isFirst_memchr
    (m : Buffer)
    (c : UInt8)
    (n : Nat) :
    IsFirst m c n (Fs.memchr c m n) := by
  cases result : Fs.memchr c m n with
  | none => exact Fs.memchr_eq_none result
  | some d => exact Fs.memchr_eq_some result

theorem isLast_memrchr
    (m : Buffer)
    (c : UInt8)
    (n : Nat) :
    IsLast m c n (Fs.memrchr c m n) := by
  cases result : Fs.memrchr c m n with
  | none =>
      intro i lt here
      rcases Fs.memrchr_isSome lt here with ⟨last, found, _⟩
      rw [result] at found
      cases found
  | some d => exact Fs.memrchr_eq_some result

/-! ## What is found -/

/-- Inside of the object a character is found, and other keys are not. -/
theorem memchr_eq
    {m : Buffer}
    {n : Nat}
    (inside : n ≤ m.length)
    (c : UInt8) :
    memchr m c.toNat n = .ok (if c < 128 then Fs.memchr c m n else none) := by
  induction m generalizing n with
  | nil =>
      rw [Nat.le_zero.mp inside]
      simp [memchr, Fs.memchr]
  | cons b m induction =>
      cases n with
      | zero => simp [memchr, Fs.memchr]
      | succ n =>
          have rest := induction (Nat.le_of_succ_le_succ inside)
          simp only [memchr, Fs.memchr, charValue_eq_key, rest, Except.map]
          by_cases char : c < 128
          · by_cases same : b = c
            · simp [same, char]
            · simp [same, char]
          · simp [char]

theorem memrchrFrom_eq
    {m : Buffer}
    {n : Nat}
    (inside : n ≤ m.length)
    (c : UInt8) :
    memrchrFrom m c.toNat n =
      .ok (if c < 128 then Fs.memrchr c m n else none) := by
  induction n with
  | zero => simp [memrchrFrom, Fs.memrchr]
  | succ n induction =>
      have lt : n < m.length := inside
      simp only [memrchrFrom, Fs.memrchr, List.getElem?_eq_getElem lt,
        charValue_eq_key, induction (by omega)]
      by_cases char : c < 128
      · by_cases same : m[n] = c
        · simp [same, char]
        · simp [same, char]
      · simp [char]

/-- The counter of a search from the end starts at `n - 1`, if that fits. -/
theorem memrchr_counter
    {n : Nat}
    (small : n < 2 ^ 64) :
    (((n : Int) - 1).bmod (2 ^ 64) + 1).toNat =
      if n ≤ 2 ^ 63 then n else 0 := by
  rw [Int.bmod_def]
  split <;> split <;> omega

theorem memrchr_eq
    {m : Buffer}
    {n : Nat}
    (inside : n ≤ m.length)
    (small : n < 2 ^ 64)
    (c : UInt8) :
    memrchr m c.toNat n =
      .ok (if c < 128 ∧ n ≤ 2 ^ 63 then Fs.memrchr c m n else none) := by
  rw [memrchr, memrchr_counter small]
  by_cases fits : n ≤ 2 ^ 63
  · rw [if_pos fits, memrchrFrom_eq inside]
    simp only [fits, and_true]
  · have never : ¬ (c < 128 ∧ n ≤ 2 ^ 63) := fun starts => fits starts.2
    rw [if_neg fits, memrchrFrom_eq (Nat.zero_le _), if_neg never]
    split <;> rfl

/-- What is found is there. -/
theorem memchr_found
    {m : Buffer}
    {n d : Nat}
    (inside : n ≤ m.length)
    {c : UInt8}
    (found : memchr m c.toNat n = .ok (some d)) :
    d < n ∧ m[d]? = some c := by
  rw [memchr_eq inside] at found
  split at found
  · have isFirst := isFirst_memchr m c n
    rw [Except.ok.inj found] at isFirst
    exact ⟨isFirst.1, isFirst.2.1⟩
  · cases found

theorem memrchr_found
    {m : Buffer}
    {n d : Nat}
    (inside : n ≤ m.length)
    (small : n < 2 ^ 64)
    {c : UInt8}
    (found : memrchr m c.toNat n = .ok (some d)) :
    d < n ∧ m[d]? = some c := by
  rw [memrchr_eq inside small] at found
  split at found
  · have isLast := isLast_memrchr m c n
    rw [Except.ok.inj found] at isLast
    exact ⟨isLast.1, isLast.2.1⟩
  · cases found

/-! ## When the answers are right -/

theorem finds_memchr_iff
    {m : Buffer}
    {n : Nat}
    (inside : n ≤ m.length)
    (c : UInt8) :
    Finds (memchr m c.toNat n) (IsFirst m c n) ↔
      c < 128 ∨ c ∉ m.take n := by
  rw [memchr_eq inside, finds_ok, ← absent_iff_not_mem_take]
  by_cases char : c < 128
  · simp only [char, if_true, true_or, iff_true]
    exact isFirst_memchr m c n
  · simp only [char, if_false, false_or]
    exact Iff.rfl

theorem finds_memrchr_iff
    {m : Buffer}
    {n : Nat}
    (inside : n ≤ m.length)
    (small : n < 2 ^ 64)
    (c : UInt8) :
    Finds (memrchr m c.toNat n) (IsLast m c n) ↔
      (c < 128 ∧ n ≤ 2 ^ 63) ∨ c ∉ m.take n := by
  rw [memrchr_eq inside small, finds_ok, ← absent_iff_not_mem_take]
  by_cases starts : c < 128 ∧ n ≤ 2 ^ 63
  · rw [if_pos starts]
    exact iff_of_true (isLast_memrchr m c n) (.inl starts)
  · rw [if_neg starts]
    exact (or_iff_right starts).symm

section

variable
  {s : Buffer}
  {a : CString}
  {c : UInt8}

theorem Terminated.nul_at (terminated : Terminated s a) :
    s[a.length]? = some 0 := by
  rcases terminated.2 with ⟨more, rfl⟩
  simp

/-- Any other byte stands before the terminator. -/
theorem Terminated.lt_nul
    (terminated : Terminated s a)
    (nonzero : c ≠ 0)
    {i : Nat}
    (here : s[i]? = some c)
    (below : i < a.length + 1) :
    i < a.length := by
  have differ : i ≠ a.length := by
    rintro rfl
    rw [terminated.nul_at] at here
    exact nonzero (Option.some.inj here).symm
  omega

theorem Terminated.not_nul
    (terminated : Terminated s a)
    {i : Nat}
    (lt : i < a.length) :
    s[i]? ≠ some 0 := by
  rcases terminated with ⟨noNul, more, rfl⟩
  rw [List.getElem?_append_left lt]
  intro here
  exact noNul (List.mem_of_getElem? here)

/-- Only the key zero is found at the terminator. -/
theorem Terminated.isFirst_succ_iff
    (terminated : Terminated s a)
    (nonzero : c ≠ 0)
    (answer : Option Nat) :
    IsFirst s c (a.length + 1) answer ↔ IsFirst s c a.length answer := by
  cases answer with
  | none =>
      constructor
      · intro absent i lt
        exact absent i (by omega)
      · intro absent i lt here
        exact absent i (terminated.lt_nul nonzero here lt) here
  | some d =>
      constructor
      · rintro ⟨lt, here, first⟩
        exact ⟨terminated.lt_nul nonzero here lt, here, first⟩
      · rintro ⟨lt, here, first⟩
        exact ⟨by omega, here, first⟩

theorem Terminated.isLast_succ_iff
    (terminated : Terminated s a)
    (nonzero : c ≠ 0)
    (answer : Option Nat) :
    IsLast s c (a.length + 1) answer ↔ IsLast s c a.length answer := by
  cases answer with
  | none => exact terminated.isFirst_succ_iff nonzero none
  | some d =>
      constructor
      · rintro ⟨lt, here, last⟩
        exact ⟨terminated.lt_nul nonzero here lt, here,
          fun i above below => last i above (by omega)⟩
      · rintro ⟨lt, here, last⟩
        refine ⟨by omega, here, fun i above below there => ?_⟩
        exact last i above (terminated.lt_nul nonzero there below) there

/-- A search before the terminator does not find it. -/
theorem Terminated.not_finds_nul
    (terminated : Terminated s a)
    {result : Except Fault (Option Nat)}
    (outcome : ∀ d, result = .ok (some d) → d < a.length ∧ s[d]? = some 0)
    {right : Option Nat → Prop}
    (absent : right none → Absent s 0 (a.length + 1)) :
    ¬ Finds result right := by
  rintro ⟨answer, isAnswer, holds⟩
  cases answer with
  | none =>
      exact absent holds a.length (Nat.lt_succ_self _) terminated.nul_at
  | some d =>
      rcases outcome d isAnswer with ⟨lt, here⟩
      exact terminated.not_nul lt here

theorem Terminated.mem_take_iff (terminated : Terminated s a) :
    c ∈ s.take a.length ↔ c ∈ a := by
  rw [terminated.take (Nat.le_refl _), List.take_length]

theorem finds_strchr_iff (terminated : Terminated s a) :
    Finds (strchr s c.toNat) (IsFirst s c (a.length + 1)) ↔
      c ≠ 0 ∧ (c < 128 ∨ c ∉ a) := by
  have inside := Nat.le_of_lt terminated.length_lt
  have code : strchr s c.toNat = memchr s c.toNat a.length := by
    rw [strchr, terminated.strlen, ok_bind]
  rw [code]
  by_cases zero : c = 0
  · subst zero
    simp only [ne_eq, not_true_eq_false, false_and, iff_false]
    apply terminated.not_finds_nul _ id
    intro d found
    exact @memchr_found s a.length d inside 0 found
  · have same : Finds (memchr s c.toNat a.length)
        (IsFirst s c (a.length + 1)) ↔
          Finds (memchr s c.toNat a.length) (IsFirst s c a.length) := by
      simp only [Finds, terminated.isFirst_succ_iff zero]
    rw [same, finds_memchr_iff inside, terminated.mem_take_iff]
    simp [zero]

theorem finds_strrchr_iff
    (terminated : Terminated s a)
    (small : a.length < 2 ^ 64) :
    Finds (strrchr s c.toNat) (IsLast s c (a.length + 1)) ↔
      c ≠ 0 ∧ ((c < 128 ∧ a.length ≤ 2 ^ 63) ∨ c ∉ a) := by
  have inside := Nat.le_of_lt terminated.length_lt
  have code : strrchr s c.toNat = memrchr s c.toNat a.length := by
    rw [strrchr, terminated.strlen, ok_bind]
  rw [code]
  by_cases zero : c = 0
  · subst zero
    simp only [ne_eq, not_true_eq_false, false_and, iff_false]
    apply terminated.not_finds_nul _ id
    intro d found
    exact @memrchr_found s a.length d inside small 0 found
  · have same : Finds (memrchr s c.toNat a.length)
        (IsLast s c (a.length + 1)) ↔
          Finds (memrchr s c.toNat a.length) (IsLast s c a.length) := by
      simp only [Finds, terminated.isLast_succ_iff zero]
    rw [same, finds_memrchr_iff inside small, terminated.mem_take_iff]
    simp [zero]

end

/--
The searches find the first and the last occurrence of a key just when it is
below 128 or does not occur, and those through strings when it is not zero.
-/
theorem searches_iff
    {m s : Buffer}
    {a : CString}
    {n : Nat}
    (inside : n ≤ m.length)
    (small : n < 2 ^ 64)
    (terminated : Terminated s a)
    (short : a.length < 2 ^ 64)
    (c : UInt8) :
    (Finds (memchr m c.toNat n) (IsFirst m c n) ↔
        c < 128 ∨ c ∉ m.take n) ∧
      (Finds (memrchr m c.toNat n) (IsLast m c n) ↔
        (c < 128 ∧ n ≤ 2 ^ 63) ∨ c ∉ m.take n) ∧
      (Finds (strchr s c.toNat) (IsFirst s c (a.length + 1)) ↔
        c ≠ 0 ∧ (c < 128 ∨ c ∉ a)) ∧
      (Finds (strrchr s c.toNat) (IsLast s c (a.length + 1)) ↔
        c ≠ 0 ∧ ((c < 128 ∧ a.length ≤ 2 ^ 63) ∨ c ∉ a)) :=
  ⟨finds_memchr_iff inside c, finds_memrchr_iff inside small c,
    finds_strchr_iff terminated, finds_strrchr_iff terminated short⟩

/-- The letter `b` in three bytes and in the string `abb`. -/
theorem searches_iff_letters :
    (Finds (memchr [97, 98, 98] ((98 : UInt8).toNat : Int) 3)
        (IsFirst [97, 98, 98] 98 3) ↔
        (98 : UInt8) < 128 ∨ (98 : UInt8) ∉ List.take 3 [97, 98, 98]) ∧
      (Finds (memrchr [97, 98, 98] ((98 : UInt8).toNat : Int) 3)
          (IsLast [97, 98, 98] 98 3) ↔
        ((98 : UInt8) < 128 ∧ 3 ≤ 2 ^ 63) ∨
          (98 : UInt8) ∉ List.take 3 [97, 98, 98]) ∧
      (Finds (strchr [97, 98, 98, 0] ((98 : UInt8).toNat : Int))
          (IsFirst [97, 98, 98, 0] 98 4) ↔
        (98 : UInt8) ≠ 0 ∧ ((98 : UInt8) < 128 ∨
          (98 : UInt8) ∉ [97, 98, 98])) ∧
      (Finds (strrchr [97, 98, 98, 0] ((98 : UInt8).toNat : Int))
          (IsLast [97, 98, 98, 0] 98 4) ↔
        (98 : UInt8) ≠ 0 ∧ (((98 : UInt8) < 128 ∧ 3 ≤ 2 ^ 63) ∨
          (98 : UInt8) ∉ [97, 98, 98])) :=
  @searches_iff [97, 98, 98] [97, 98, 98, 0] [97, 98, 98] 3 (by decide)
    (by decide) ⟨by decide, [], rfl⟩ (by decide) 98

/--
The byte 200 is not found where it stands, and neither search through the
string `a` finds its terminator.
-/
theorem searches_miss :
    memchr [200] 200 1 = .ok none ∧ memrchr [200] 200 1 = .ok none ∧
      strchr [97, 0] 0 = .ok none ∧ strrchr [97, 0] 0 = .ok none ∧
      ¬ Absent [200] 200 1 ∧ ¬ Absent [97, 0] 0 2 := by
  refine ⟨by decide, by decide, by decide, by decide, ?_, ?_⟩
  · intro absent
    exact absent 0 (by decide) rfl
  · intro absent
    exact absent 1 (by decide) rfl

end ForsKernel.Forslib
