import ForsKernel.Fs.Prefixes
import ForsKernel.Forslib.Strings

/-!
# The order of strings

`strcmp` and `strncmp` compare the common part of two strings with `memcmp`,
which subtracts signed characters.  A string is therefore as good as any which
it begins, and bytes from 128 on come before the others.  Apart from this the
answer has the sign of the lexicographic order.
-/

namespace ForsKernel.Forslib

open ForsKernel.Fs (CString Comparable)

/-! ## Lexicographic order -/

/-- The sign of the comparison of two strings as unsigned bytes. -/
def lexSign (a b : CString) : Int :=
  if a = b then 0 else if a < b then -1 else 1

/-- Where the strings first differ they have these bytes. -/
def FirstDifference
    (a b : CString)
    (x y : UInt8) :
    Prop :=
  x ≠ y ∧ ∃ common s t, a = common ++ x :: s ∧ b = common ++ y :: t

/-- Two strings go together, or differ somewhere. -/
theorem comparable_or_difference (a b : CString) :
    Comparable a b ∨ ∃ x y, FirstDifference a b x y := by
  induction a generalizing b with
  | nil => exact .inl (.inl List.nil_prefix)
  | cons x a induction =>
      cases b with
      | nil => exact .inl (.inr List.nil_prefix)
      | cons y b =>
          by_cases same : x = y
          · subst same
            rcases induction b with
              (isPrefix | isPrefix) | ⟨c, d, differ, common, s, t, rfl, rfl⟩
            · exact .inl (.inl (List.cons_prefix_cons.mpr ⟨rfl, isPrefix⟩))
            · exact .inl (.inr (List.cons_prefix_cons.mpr ⟨rfl, isPrefix⟩))
            · exact .inr ⟨c, d, differ, x :: common, s, t, rfl, rfl⟩
          · exact .inr ⟨x, y, same, [], a, b, rfl, rfl⟩

theorem FirstDifference.ne
    {a b : CString}
    {x y : UInt8}
    (first : FirstDifference a b x y) :
    a ≠ b := by
  rcases first with ⟨differ, common, s, t, rfl, rfl⟩
  intro same
  exact differ (List.cons.inj (List.append_cancel_left same)).1

/-- The first difference decides the order. -/
theorem FirstDifference.lt_iff
    {a b : CString}
    {x y : UInt8}
    (first : FirstDifference a b x y) :
    a < b ↔ x < y := by
  rcases first with ⟨differ, common, s, t, rfl, rfl⟩
  induction common with
  | nil => simp [List.cons_lt_cons_iff, differ]
  | cons z common induction =>
      rw [List.cons_append, List.cons_append, List.cons_lt_cons_iff]
      simpa using induction

theorem lexSign_eq_zero {a b : CString} : lexSign a b = 0 ↔ a = b := by
  rw [lexSign]
  split
  · simpa
  · split <;> simpa

theorem FirstDifference.lexSign
    {a b : CString}
    {x y : UInt8}
    (first : FirstDifference a b x y) :
    lexSign a b = if x < y then -1 else 1 := by
  rw [Forslib.lexSign, if_neg first.ne]
  simp only [first.lt_iff]

theorem lexSign_le_zero {a b : CString} : lexSign a b ≤ 0 ↔ a ≤ b := by
  rw [lexSign]
  by_cases same : a = b
  · simp [same]
  · by_cases less : a < b
    · simp [same, less, List.le_of_lt less]
    · have more : ¬ a ≤ b := fun le =>
        same (List.le_antisymm le (List.not_lt.mp less))
      simp [same, less, more]

theorem lexSign_swap (a b : CString) : lexSign b a = -lexSign a b := by
  by_cases same : a = b
  · simp [lexSign, same]
  · have differ : b ≠ a := fun same' => same same'.symm
    by_cases less : a < b
    · simp [lexSign, same, differ, less, List.lt_asymm less]
    · have more : b < a := by
        by_contra notMore
        exact same (List.le_antisymm notMore less)
      simp [lexSign, same, differ, less, more]

theorem lexSign_trans
    {a b c : CString}
    (left : lexSign a b ≤ 0)
    (right : lexSign b c ≤ 0) :
    lexSign a c ≤ 0 := by
  rw [lexSign_le_zero] at *
  exact List.le_trans left right

/-! ## What is compared -/

/-- Behind a common beginning the next bytes are subtracted. -/
theorem memcmp_common
    (common s t : CString)
    {x y : UInt8}
    (differ : x ≠ y)
    {n : Nat}
    (enough : common.length < n) :
    Fs.memcmp (common ++ x :: s) (common ++ y :: t) n =
      charValue x - charValue y := by
  induction common generalizing n with
  | nil =>
      cases n with
      | zero => cases enough
      | succ n => simp [Fs.memcmp, differ, charValue]
  | cons z common induction =>
      cases n with
      | zero => cases enough
      | succ n =>
          simpa [Fs.memcmp] using induction (Nat.lt_of_succ_lt_succ enough)

/-- The comparison of the common part. -/
def compareCommon (a b : CString) : Int :=
  Fs.memcmp a b (min a.length b.length)

theorem compareCommon_eq_zero {a b : CString} :
    compareCommon a b = 0 ↔ Comparable a b := by
  rw [compareCommon, Fs.memcmp_eq_zero (min_le_left _ _) (min_le_right _ _),
    Fs.comparable_iff_take]

theorem FirstDifference.compareCommon
    {a b : CString}
    {x y : UInt8}
    (first : FirstDifference a b x y) :
    compareCommon a b = charValue x - charValue y := by
  rcases first with ⟨differ, common, s, t, rfl, rfl⟩
  apply memcmp_common _ _ _ differ
  simp only [List.length_append, List.length_cons]
  omega

/--
Neither string begins the other one, and where they first differ both bytes
are below 128 or both are not.
-/
structure DecidedAlike (a b : CString) : Prop where
  whole : Comparable a b → a = b
  alike : ∀ x y, FirstDifference a b x y → (x < 128 ↔ y < 128)

/-- Signed and unsigned characters are ordered alike on either side of 128. -/
theorem sign_charValue_iff
    {x y : UInt8}
    (differ : x ≠ y) :
    (charValue x - charValue y).sign = (if x < y then -1 else 1) ↔
      (x < 128 ↔ y < 128) := by
  have left := x.toNat_lt
  have right := y.toNat_lt
  rw [Ne, ← UInt8.toNat_inj] at differ
  simp only [charValue_eq, UInt8.lt_iff_toNat_lt, UInt8.toNat_ofNat,
    Nat.reducePow, Nat.reduceMod]
  constructor
  · intro right
    by_cases less : x.toNat < y.toNat
    · rw [if_pos less, Int.sign_eq_neg_one_iff_neg] at right
      split at right <;> split at right <;> omega
    · rw [if_neg less, Int.sign_eq_one_iff_pos] at right
      split at right <;> split at right <;> omega
  · intro alike
    by_cases less : x.toNat < y.toNat
    · rw [if_pos less, Int.sign_eq_neg_one_iff_neg]
      split <;> split <;> omega
    · rw [if_neg less, Int.sign_eq_one_iff_pos]
      split <;> split <;> omega

theorem compareCommon_sign_iff (a b : CString) :
    (compareCommon a b).sign = lexSign a b ↔ DecidedAlike a b := by
  constructor
  · intro right
    refine ⟨?_, ?_⟩
    · intro comparable
      rw [compareCommon_eq_zero.mpr comparable] at right
      exact lexSign_eq_zero.mp right.symm
    · intro x y first
      rw [first.compareCommon, first.lexSign] at right
      exact (sign_charValue_iff first.1).mp right
  · intro decided
    rcases comparable_or_difference a b with comparable | ⟨x, y, first⟩
    · rw [compareCommon_eq_zero.mpr comparable,
        lexSign_eq_zero.mpr (decided.whole comparable)]
      rfl
    · rw [first.compareCommon, first.lexSign]
      exact (sign_charValue_iff first.1).mpr (decided.alike x y first)

theorem DecidedAlike.swap
    {a b : CString}
    (decided : DecidedAlike a b) :
    DecidedAlike b a := by
  refine ⟨fun comparable => (decided.whole comparable.symm).symm, ?_⟩
  rintro x y ⟨differ, common, s, t, rfl, rfl⟩
  exact (decided.alike y x ⟨differ.symm, common, t, s, rfl, rfl⟩).symm

/-! ## The two comparisons -/

/-- The comparison answers, and with this sign. -/
def Answers
    (result : Except Fault Int)
    (sign : Int) :
    Prop :=
  ∃ r, result = .ok r ∧ r.sign = sign

/-- On three strings the comparison is antisymmetric and transitive. -/
structure Orders
    (compare : Buffer → Buffer → Except Fault Int)
    (s t u : Buffer) :
    Prop where
  swap : ∀ x y, compare s t = .ok x → compare t s = .ok y →
    y.sign = -x.sign
  trans : ∀ x y z, compare s t = .ok x → compare t u = .ok y →
    compare s u = .ok z → x ≤ 0 → y ≤ 0 → z ≤ 0

theorem Terminated.strcmp
    {s t : Buffer}
    {a b : CString}
    (isA : Terminated s a)
    (isB : Terminated t b) :
    strcmp s t = .ok (compareCommon a b) := by
  rw [Forslib.strcmp, isA.strlen, isB.strlen]
  simp only [ok_bind]
  exact isA.memcmp isB (min_le_left _ _) (min_le_right _ _)

/-- A bounded comparison is one of the strings cut to the bound. -/
theorem Terminated.strncmp_take
    {s t : Buffer}
    {a b : CString}
    (isA : Terminated s a)
    (isB : Terminated t b)
    (n : Nat) :
    Forslib.strncmp s t n =
      .ok (compareCommon (a.take n) (b.take n)) := by
  have common : min (Fs.strnlen a n) (Fs.strnlen b n) =
      min (a.take n).length (b.take n).length := by
    rw [Fs.strnlen_eq, Fs.strnlen_eq, List.length_take, List.length_take]
    omega
  have short : min (a.take n).length (b.take n).length ≤ n := by
    rw [List.length_take]
    omega
  rw [isA.strncmp isB, Fs.strncmp, common, compareCommon,
    ← memcmp_take a b, ← memcmp_take (a.take n) (b.take n), List.take_take,
    List.take_take, min_eq_left short]

/-- What answers as the lexicographic order does is an order. -/
theorem orders_of_decided
    {compare : Buffer → Buffer → Except Fault Int}
    {s t u : Buffer}
    {a b c : CString}
    (atST : compare s t = .ok (compareCommon a b))
    (atTS : compare t s = .ok (compareCommon b a))
    (atTU : compare t u = .ok (compareCommon b c))
    (atSU : compare s u = .ok (compareCommon a c))
    (first : DecidedAlike a b)
    (second : DecidedAlike b c)
    (outer : DecidedAlike a c) :
    Orders compare s t u := by
  have signAB := (compareCommon_sign_iff a b).mpr first
  have signBA := (compareCommon_sign_iff b a).mpr first.swap
  have signBC := (compareCommon_sign_iff b c).mpr second
  have signAC := (compareCommon_sign_iff a c).mpr outer
  constructor
  · intro x y isX isY
    cases atST.symm.trans isX
    cases atTS.symm.trans isY
    rw [signBA, signAB, lexSign_swap]
  · intro x y z isX isY isZ left right
    cases atST.symm.trans isX
    cases atTU.symm.trans isY
    cases atSU.symm.trans isZ
    rw [← Int.sign_nonpos_iff] at left right ⊢
    rw [signAB] at left
    rw [signBC] at right
    rw [signAC]
    exact lexSign_trans left right

theorem answers_iff
    {result : Except Fault Int}
    {a b : CString}
    (isResult : result = .ok (compareCommon a b)) :
    Answers result (lexSign a b) ↔ DecidedAlike a b := by
  rw [← compareCommon_sign_iff, isResult]
  constructor
  · rintro ⟨r, same, sign⟩
    cases same
    exact sign
  · intro sign
    exact ⟨_, rfl, sign⟩

/--
The comparisons have the sign of the lexicographic order of the strings, or
of the cut strings, just when the order does not depend on a proper prefix or
on the signs of the characters, and there they are orders.
-/
theorem comparison_iff
    {s t u : Buffer}
    {a b c : CString}
    (isA : Terminated s a)
    (isB : Terminated t b)
    (isC : Terminated u c)
    (n : Nat) :
    (Answers (strcmp s t) (lexSign a b) ↔ DecidedAlike a b) ∧
      (Answers (strncmp s t n) (lexSign (a.take n) (b.take n)) ↔
        DecidedAlike (a.take n) (b.take n)) ∧
      (DecidedAlike a b → DecidedAlike b c → DecidedAlike a c →
        Orders strcmp s t u) ∧
      (DecidedAlike (a.take n) (b.take n) →
        DecidedAlike (b.take n) (c.take n) →
        DecidedAlike (a.take n) (c.take n) →
        Orders (fun s t => strncmp s t n) s t u) := by
  refine ⟨answers_iff (isA.strcmp isB), answers_iff (isA.strncmp_take isB n),
    ?_, ?_⟩
  · exact orders_of_decided (isA.strcmp isB) (isB.strcmp isA)
      (isB.strcmp isC) (isA.strcmp isC)
  · exact orders_of_decided (isA.strncmp_take isB n) (isB.strncmp_take isA n)
      (isB.strncmp_take isC n) (isA.strncmp_take isC n)

/-- The strings `ab`, `b` and `ac`, compared up to their first byte. -/
theorem comparison_iff_letters :
    (Answers (strcmp [97, 98, 0] [98, 0]) (lexSign [97, 98] [98]) ↔
        DecidedAlike [97, 98] [98]) ∧
      (Answers (strncmp [97, 98, 0] [98, 0] 1)
          (lexSign (List.take 1 [97, 98]) (List.take 1 [98])) ↔
        DecidedAlike (List.take 1 [97, 98]) (List.take 1 [98])) ∧
      (DecidedAlike [97, 98] [98] → DecidedAlike [98] [97, 99] →
        DecidedAlike [97, 98] [97, 99] →
        Orders strcmp [97, 98, 0] [98, 0] [97, 99, 0]) ∧
      (DecidedAlike (List.take 1 [97, 98]) (List.take 1 [98]) →
        DecidedAlike (List.take 1 [98]) (List.take 1 [97, 99]) →
        DecidedAlike (List.take 1 [97, 98]) (List.take 1 [97, 99]) →
        Orders (fun s t => strncmp s t 1) [97, 98, 0] [98, 0] [97, 99, 0]) :=
  @comparison_iff [97, 98, 0] [98, 0] [97, 99, 0] [97, 98] [98] [97, 99]
    ⟨by decide, [], rfl⟩ ⟨by decide, [], rfl⟩ ⟨by decide, [], rfl⟩ 1

/--
The empty string is equal to `a` and to `b`, which are not equal, and the
byte 128 comes before `a`.
-/
theorem strcmp_not_lexicographic :
    strcmp [0] [97, 0] = .ok 0 ∧ lexSign [] [97] = -1 ∧
      strcmp [97, 0] [0] = .ok 0 ∧ strcmp [0] [98, 0] = .ok 0 ∧
      strcmp [98, 0] [97, 0] = .ok 1 ∧
      strcmp [128, 0] [97, 0] = .ok (-225) ∧ lexSign [128] [97] = 1 := by
  decide

end ForsKernel.Forslib
