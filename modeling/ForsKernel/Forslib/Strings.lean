import Mathlib.Algebra.Group.Nat.Defs
import Mathlib.Data.List.Basic
import Mathlib.Data.List.TakeWhile
import ForsKernel.Fs.Path

/-!
# The string library

`generic/forslib/string.c` on bounded memory.  A pointer is the list of the
bytes from it up to the end of the object which it points into, and an access
behind the end of an object is a fault.  A function which returns a pointer
into its argument returns the offset from the argument, and one which writes
returns the destination as it is afterwards.

The functions of the same names in `ForsKernel.Fs` are what these ones do on
strings which have a terminator.
-/

namespace ForsKernel.Forslib

open ForsKernel.Fs (CString)

/-- The bytes from a pointer up to the end of its object. -/
abbrev Buffer := List UInt8

/-- An access behind the end of an object. -/
inductive Fault where
  | read
  | write
deriving DecidableEq, Repr

/-- The value of a `char`, which is signed. -/
def charValue (b : UInt8) : Int :=
  b.toInt8.toInt

/-! ## Memory -/

def memchr : Buffer → Int → Nat → Except Fault (Option Nat)
  | _, _, 0 => .ok none
  | [], _, _ + 1 => .error .read
  | b :: m, c, n + 1 =>
      if charValue b = c then .ok (some 0)
      else (memchr m c n).map (Option.map (· + 1))

/-- The loop of `memrchr`, with `i + 1` as its counter. -/
def memrchrFrom
    (m : Buffer)
    (c : Int) :
    Nat → Except Fault (Option Nat)
  | 0 => .ok none
  | i + 1 =>
      match m[i]? with
      | none => .error .read
      | some b => if charValue b = c then .ok (some i) else memrchrFrom m c i

/-- The counter is a `long`, which a large `n - 1` makes negative. -/
def memrchr
    (m : Buffer)
    (c : Int)
    (n : Nat) :
    Except Fault (Option Nat) :=
  memrchrFrom m c (((n : Int) - 1).bmod (2 ^ 64) + 1).toNat

def memcmp : Buffer → Buffer → Nat → Except Fault Int
  | _, _, 0 => .ok 0
  | a :: sa, b :: sb, n + 1 =>
      if a ≠ b then .ok (charValue a - charValue b) else memcmp sa sb n
  | _, _, _ + 1 => .error .read

/-! ## Lengths -/

def strlen : Buffer → Except Fault Nat
  | [] => .error .read
  | b :: s => if b = 0 then .ok 0 else (strlen s).map (· + 1)

/-- The byte is read before the count is looked at. -/
def strnlen : Buffer → Nat → Except Fault Nat
  | [], _ => .error .read
  | b :: s, n =>
      if b ≠ 0 ∧ 0 < n then (strnlen s (n - 1)).map (· + 1) else .ok 0

/-! ## Copies -/

/-- The offset which is returned, and the destination. -/
def stpncpy : Buffer → Buffer → Nat → Except Fault (Nat × Buffer)
  | _, [], _ => .error .read
  | dest, b :: src, n =>
      match dest with
      | [] => .error .write
      | _ :: dest =>
          if b ≠ 0 ∧ 0 < n then
            (stpncpy dest src (n - 1)).map fun copied =>
              (copied.1 + 1, b :: copied.2)
          else .ok (0, 0 :: dest)

def strncpy
    (dest src : Buffer)
    (n : Nat) :
    Except Fault Buffer :=
  (stpncpy dest src n).map Prod.snd

/-! ## Searches -/

def strchr
    (s : Buffer)
    (c : Int) :
    Except Fault (Option Nat) := do
  memchr s c (← strlen s)

def strrchr
    (s : Buffer)
    (c : Int) :
    Except Fault (Option Nat) := do
  memrchr s c (← strlen s)

def strnchr
    (s : Buffer)
    (c : Int)
    (n : Nat) :
    Except Fault (Option Nat) := do
  memchr s c (← strnlen s n)

def strnrchr
    (s : Buffer)
    (c : Int)
    (n : Nat) :
    Except Fault (Option Nat) := do
  memrchr s c (← strnlen s n)

/-- The inner loop of `strpbrk`. -/
def occursIn (b : UInt8) : Buffer → Nat → Except Fault Bool
  | _, 0 => .ok false
  | [], _ + 1 => .error .read
  | a :: accept, l + 1 => if b = a then .ok true else occursIn b accept l

def strpbrkFrom
    (accept : Buffer)
    (l : Nat) :
    Buffer → Except Fault (Option Nat)
  | [] => .error .read
  | b :: s =>
      if b = 0 then .ok none
      else
        match occursIn b accept l with
        | .error fault => .error fault
        | .ok true => .ok (some 0)
        | .ok false => (strpbrkFrom accept l s).map (Option.map (· + 1))

def strpbrk (s accept : Buffer) : Except Fault (Option Nat) := do
  strpbrkFrom accept (← strlen accept) s

/--
The loop of `strspn` and `strcspn` over their first argument.  The inner loop
tells whether the function returns, and the count so far.
-/
def spanLoop (inner : UInt8 → Nat → Except Fault (Bool × Nat)) :
    Buffer → Nat → Except Fault Nat
  | [], _ => .error .read
  | b :: s, n =>
      if b = 0 then .ok n
      else
        match inner b n with
        | .error fault => .error fault
        | .ok (true, n) => .ok n
        | .ok (false, n) => spanLoop inner s n

/-- Both branches leave the loop in its first round. -/
def strspnInner
    (accept : Buffer)
    (l : Nat)
    (b : UInt8)
    (n : Nat) :
    Except Fault (Bool × Nat) :=
  if l = 0 then .ok (false, n)
  else
    match accept with
    | [] => .error .read
    | a :: _ => if b = a then .ok (false, n + 1) else .ok (true, n)

def strspn (s accept : Buffer) : Except Fault Nat := do
  spanLoop (strspnInner accept (← strlen accept)) s 0

/-- Both branches leave the loop in its first round. -/
def strcspnInner
    (reject : Buffer)
    (l : Nat)
    (b : UInt8)
    (n : Nat) :
    Except Fault (Bool × Nat) :=
  if l = 0 then .ok (false, n)
  else
    match reject with
    | [] => .error .read
    | a :: _ => if b = a then .ok (true, n) else .ok (false, n + 1)

def strcspn (s reject : Buffer) : Except Fault Nat := do
  spanLoop (strcspnInner reject (← strlen reject)) s 0

/-! ## Comparisons -/

def strcmp (s1 s2 : Buffer) : Except Fault Int := do
  memcmp s1 s2 (min (← strlen s1) (← strlen s2))

def strncmp
    (s1 s2 : Buffer)
    (n : Nat) :
    Except Fault Int := do
  memcmp s1 s2 (min (← strnlen s1 n) (← strnlen s2 n))

/-! ## Strings with a terminator -/

@[simp]
theorem ok_bind
    {ε α β : Type}
    (a : α)
    (next : α → Except ε β) :
    (Except.ok a >>= next) = next a :=
  rfl

@[simp]
theorem error_bind
    {ε α β : Type}
    (fault : ε)
    (next : α → Except ε β) :
    (Except.error fault >>= next) = .error fault :=
  rfl

/-- The buffer begins with this string and a terminator. -/
def Terminated
    (s : Buffer)
    (a : CString) :
    Prop :=
  0 ∉ a ∧ ∃ more, s = a ++ 0 :: more

theorem Terminated.tail
    {b x : UInt8}
    {s : Buffer}
    {a : CString}
    (terminated : Terminated (b :: s) (x :: a)) :
    x ≠ 0 ∧ b = x ∧ Terminated s a := by
  rcases terminated with ⟨noNul, more, whole⟩
  rw [List.cons_append, List.cons.injEq] at whole
  rw [List.mem_cons, not_or] at noNul
  exact ⟨fun zero => noNul.1 zero.symm, whole.1, noNul.2, more, whole.2⟩

theorem Terminated.head
    {b : UInt8}
    {s : Buffer}
    (terminated : Terminated (b :: s) []) :
    b = 0 := by
  rcases terminated.2 with ⟨more, whole⟩
  rw [List.nil_append, List.cons.injEq] at whole
  exact whole.1

theorem not_terminated_nil (a : CString) : ¬ Terminated [] a := by
  rintro ⟨_, more, whole⟩
  have length := congrArg List.length whole
  simp at length

theorem Terminated.length_lt
    {s : Buffer}
    {a : CString}
    (terminated : Terminated s a) :
    a.length < s.length := by
  rcases terminated.2 with ⟨more, rfl⟩
  rw [List.length_append, List.length_cons]
  omega

/-- Bytes in front of the terminator belong to the string. -/
theorem Terminated.of_append
    {taken s : Buffer}
    {a : CString}
    (terminated : Terminated (taken ++ s) a)
    (noNul : 0 ∉ taken) :
    ∃ tail, a = taken ++ tail ∧ Terminated s tail := by
  induction taken generalizing a with
  | nil => exact ⟨a, rfl, terminated⟩
  | cons b taken induction =>
      rw [List.mem_cons, not_or] at noNul
      cases a with
      | nil => exact (noNul.1 terminated.head.symm).elim
      | cons x a =>
          rcases terminated.tail with ⟨_, rfl, inner⟩
          rcases induction inner noNul.2 with ⟨tail, rfl, isTail⟩
          exact ⟨tail, rfl, isTail⟩

/-- The string continues behind a part of it. -/
theorem Terminated.drop
    {taken tail : CString}
    {s : Buffer}
    (terminated : Terminated s (taken ++ tail)) :
    ∃ rest, s = taken ++ rest ∧ Terminated rest tail := by
  rcases terminated with ⟨noNul, more, rfl⟩
  rw [List.mem_append, not_or] at noNul
  exact ⟨tail ++ 0 :: more, List.append_assoc _ _ _, noNul.2, more, rfl⟩

theorem Terminated.take
    {s : Buffer}
    {a : CString}
    (terminated : Terminated s a)
    {n : Nat}
    (inside : n ≤ a.length) :
    s.take n = a.take n := by
  rcases terminated.2 with ⟨more, rfl⟩
  exact List.take_append_of_le_length inside

theorem Terminated.strlen
    {s : Buffer}
    {a : CString}
    (terminated : Terminated s a) :
    strlen s = .ok a.length := by
  induction s generalizing a with
  | nil => exact (not_terminated_nil a terminated).elim
  | cons b s induction =>
      cases a with
      | nil => rw [Forslib.strlen, if_pos terminated.head, List.length_nil]
      | cons x a =>
          rcases terminated.tail with ⟨nonzero, rfl, rest⟩
          rw [Forslib.strlen, if_neg nonzero, induction rest]
          rfl

theorem Terminated.strnlen
    {s : Buffer}
    {a : CString}
    (terminated : Terminated s a)
    (n : Nat) :
    strnlen s n = .ok (Fs.strnlen a n) := by
  induction s generalizing a n with
  | nil => exact (not_terminated_nil a terminated).elim
  | cons b s induction =>
      cases a with
      | nil =>
          have zero := terminated.head
          simp [Forslib.strnlen, Fs.strnlen, zero]
      | cons x a =>
          rcases terminated.tail with ⟨nonzero, rfl, rest⟩
          cases n with
          | zero => simp [Forslib.strnlen, Fs.strnlen]
          | succ n =>
              simp [Forslib.strnlen, Fs.strnlen, nonzero, induction rest,
                Except.map]

/-- Inside of both objects nothing but the bytes matters. -/
theorem memcmp_eq
    {s t : Buffer}
    {n : Nat}
    (left : n ≤ s.length)
    (right : n ≤ t.length) :
    memcmp s t n = .ok (Fs.memcmp s t n) := by
  induction n generalizing s t with
  | zero => simp [memcmp, Fs.memcmp]
  | succ n induction =>
      cases s with
      | nil => cases left
      | cons a s =>
          cases t with
          | nil => cases right
          | cons b t =>
              have rest := induction (Nat.le_of_succ_le_succ left)
                (Nat.le_of_succ_le_succ right)
              simp only [memcmp, Fs.memcmp, List.headD_cons, List.tail_cons,
                rest, charValue]
              by_cases same : a = b
              · simp [same]
              · simp [same]

/-- A comparison looks at so many bytes and no further. -/
theorem memcmp_take
    (s t : CString)
    (n : Nat) :
    Fs.memcmp (s.take n) (t.take n) n = Fs.memcmp s t n := by
  induction n generalizing s t with
  | zero => rfl
  | succ n induction =>
      have head : ∀ r : CString, (r.take (n + 1)).headD 0 = r.headD 0 := by
        intro r
        cases r <;> rfl
      have tail : ∀ r : CString, (r.take (n + 1)).tail = r.tail.take n := by
        intro r
        cases r <;> simp
      simp only [Fs.memcmp, head, tail, induction]

/-- On strings the comparison of the common part is that of the strings. -/
theorem Terminated.memcmp
    {s t : Buffer}
    {a b : CString}
    (isA : Terminated s a)
    (isB : Terminated t b)
    {n : Nat}
    (left : n ≤ a.length)
    (right : n ≤ b.length) :
    memcmp s t n = .ok (Fs.memcmp a b n) := by
  have shorter := isA.length_lt
  have shorter' := isB.length_lt
  rw [memcmp_eq (by omega) (by omega), ← memcmp_take, isA.take left,
    isB.take right, memcmp_take]

theorem Terminated.strncmp
    {s t : Buffer}
    {a b : CString}
    (isA : Terminated s a)
    (isB : Terminated t b)
    (n : Nat) :
    strncmp s t n = .ok (Fs.strncmp a b n) := by
  have left := Fs.strnlen_eq a n
  have right := Fs.strnlen_eq b n
  rw [Forslib.strncmp, isA.strnlen, isB.strnlen]
  simp only [ok_bind]
  exact isA.memcmp isB (by omega) (by omega)

theorem charValue_eq (b : UInt8) :
    charValue b = if b < 128 then (b.toNat : Int) else b.toNat - 256 := by
  have small := b.toNat_lt
  rw [charValue, Int8.toInt, UInt8.toBitVec_toInt8,
    BitVec.toInt_eq_toNat_cond]
  simp only [UInt8.lt_iff_toNat_lt, UInt8.toNat_toBitVec]
  simp only [UInt8.toNat_ofNat, Nat.reducePow, Nat.reduceMod]
  split <;> split <;> omega

/-- A key from 128 on is not the value of any character. -/
theorem charValue_eq_key {b c : UInt8} :
    charValue b = (c.toNat : Int) ↔ b = c ∧ c < 128 := by
  have small := b.toNat_lt
  simp only [charValue_eq, UInt8.lt_iff_toNat_lt, ← UInt8.toNat_inj,
    UInt8.toNat_ofNat, Nat.reducePow, Nat.reduceMod]
  split <;> omega

end ForsKernel.Forslib
