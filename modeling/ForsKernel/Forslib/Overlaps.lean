import Mathlib.Data.List.GetD
import ForsKernel.Fs.Path
import ForsKernel.Lib.ForwardCopy

/-!
# Copies within one memory

`memcpy`, `stpcpy` and what is built on them copy from the front, whether or
not the destination overlaps the source.  So `memcpy` moves some of the areas
which overlap, and `strcpy` never ends if it overwrites the terminator it runs
towards.  A loop which looks for a terminator has `fuel` for its iterations.
-/

namespace ForsKernel.Forslib.Overlaps

open ForsKernel.Fs (CString)
open ForsKernel.Lib.ForwardCopy

/-- The bytes at all addresses. -/
abbrev Bytes := Nat → UInt8

/-- The loop of `memcpy` from its `i`-th iteration on. -/
def memcpyFrom
    (dest src : Nat) :
    Nat → Nat → Bytes → Bytes
  | 0, _, mem => mem
  | left + 1, i, mem =>
      memcpyFrom dest src left (i + 1)
        (Function.update mem (dest + i) (mem (src + i)))

def memcpy
    (dest src n : Nat)
    (mem : Bytes) :
    Bytes :=
  memcpyFrom dest src n 0 mem

def strlen : Nat → Nat → Bytes → Option Nat
  | 0, _, _ => none
  | fuel + 1, s, mem =>
      if mem s = 0 then some 0 else (strlen fuel (s + 1) mem).map (· + 1)

/-- What is returned is where the terminator of the source stands. -/
def stpcpy : Nat → Nat → Nat → Bytes → Option (Nat × Bytes)
  | 0, _, _, _ => none
  | fuel + 1, dest, src, mem =>
      if mem src = 0 then some (src, Function.update mem dest 0)
      else
        stpcpy fuel (dest + 1) (src + 1)
          (Function.update mem dest (mem src))

def strcpy
    (fuel dest src : Nat)
    (mem : Bytes) :
    Option Bytes :=
  (stpcpy fuel dest src mem).map Prod.snd

/-- `new_prepend_cwd` once `kalloc` has returned `fullPath`. -/
def newPrependCwd
    (fuel fullPath cwd rel : Nat)
    (mem : Bytes) :
    Option Bytes := do
  let cwdLen ← strlen fuel cwd mem
  let mem ← strcpy fuel fullPath cwd mem
  strcpy fuel (fullPath + cwdLen) rel mem

/-- What it asks of `kalloc`. -/
def fullLen
    (fuel cwd rel : Nat)
    (mem : Bytes) :
    Option Nat := do
  let cwdLen ← strlen fuel cwd mem
  let relLen ← strlen fuel rel mem
  return cwdLen + relLen + 1

/-! ## Moving -/

section

variable
  {mem : Bytes}
  {dest src n : Nat}

theorem memcpyFrom_forward (left i : Nat) :
    memcpyFrom dest src left i (forward dest src mem i) =
      forward dest src mem (i + left) := by
  induction left generalizing i with
  | zero => rfl
  | succ left induction =>
      have next := induction (i + 1)
      rw [Nat.add_right_comm] at next
      exact next

theorem memcpy_eq : memcpy dest src n mem = forward dest src mem n := by
  have whole := @memcpyFrom_forward mem dest src n 0
  rw [Nat.zero_add] at whole
  exact whole

/--
Nothing but the destination changes.  It gets what stood at the source exactly
if it does not begin inside of the source, or the source repeats itself at
that distance.
-/
theorem memcpy_moves_iff
    (dest src n : Nat)
    (mem : Bytes) :
    (∀ address, address < dest ∨ dest + n ≤ address →
      memcpy dest src n mem address = mem address) ∧
      ((∀ i < n, memcpy dest src n mem (dest + i) = mem (src + i)) ↔
        (src < dest → ∀ i, i + (dest - src) < n →
          mem (src + (i + (dest - src))) = mem (src + i))) := by
  rw [memcpy_eq]
  refine ⟨fun address outside => forward_outside outside, ?_⟩
  constructor
  · intro moves lt i inside
    rw [← moves _ inside, ← moves i (by omega), forward_inside inside,
      forward_inside (by omega), origin_add lt]
  · intro repeats i inside
    rw [forward_inside inside]
    by_cases le : dest ≤ src
    · rw [origin_of_le le]
    have lt : src < dest := Nat.lt_of_not_le le
    -- each place of the copy goes back to one before the destination
    induction i using Nat.strongRecOn with
    | ind i induction =>
        by_cases before : src + i < dest
        · rw [origin_of_lt before]
        · have step : i - (dest - src) + (dest - src) = i := by omega
          have back := induction (i - (dest - src)) (by omega) (by omega)
          rw [← step, origin_add lt, back]
          exact (repeats lt _ (by omega)).symm

/-! ## Strings -/

/-- These bytes and a terminator stand at the address. -/
structure StringAt
    (mem : Bytes)
    (s : Nat)
    (a : CString) :
    Prop where
  bytes : ∀ i < a.length, a[i]? = some (mem (s + i))
  nonzero : ∀ i < a.length, mem (s + i) ≠ 0
  stop : mem (s + a.length) = 0

variable
  {s fuel : Nat}
  {a b : CString}

/-- A string depends on its own bytes only. -/
theorem StringAt.congr
    {mem' : Bytes}
    (isString : StringAt mem s a)
    (same : ∀ i ≤ a.length, mem' (s + i) = mem (s + i)) :
    StringAt mem' s a := by
  refine ⟨fun i inside => ?_, fun i inside => ?_, ?_⟩
  · rw [same i (Nat.le_of_lt inside)]
    exact isString.bytes i inside
  · rw [same i (Nat.le_of_lt inside)]
    exact isString.nonzero i inside
  · rw [same _ (Nat.le_refl _)]
    exact isString.stop

theorem strlen_eq
    (isString : StringAt mem s a)
    (enough : a.length < fuel) :
    strlen fuel s mem = some a.length := by
  induction a generalizing s fuel with
  | nil =>
      cases fuel with
      | zero => cases enough
      | succ fuel => exact if_pos isString.stop
  | cons x a induction =>
      cases fuel with
      | zero => cases enough
      | succ fuel =>
          have rest : StringAt mem (s + 1) a := by
            have next (i : Nat) : s + 1 + i = s + (i + 1) := by omega
            refine ⟨fun i inside => ?_, fun i inside => ?_, ?_⟩
            · rw [next]
              exact isString.bytes (i + 1) (Nat.succ_lt_succ inside)
            · rw [next]
              exact isString.nonzero (i + 1) (Nat.succ_lt_succ inside)
            · rw [next]
              exact isString.stop
          have first : mem s ≠ 0 := isString.nonzero 0 (Nat.succ_pos _)
          rw [strlen, if_neg first,
            induction rest (Nat.lt_of_succ_lt_succ enough)]
          rfl

/-- As long as no terminator is read, `stpcpy` copies from the front. -/
theorem stpcpy_forward
    (i k : Nat)
    (reads : ∀ j < i + k, i ≤ j → mem (origin dest src j) ≠ 0) :
    stpcpy (k + fuel) (dest + i) (src + i) (forward dest src mem i) =
      stpcpy fuel (dest + (i + k)) (src + (i + k))
        (forward dest src mem (i + k)) := by
  induction k generalizing i with
  | zero => rw [Nat.zero_add, Nat.add_zero]
  | succ k induction =>
      have here : forward dest src mem i (src + i) ≠ 0 := by
        rw [forward_source]
        exact reads i (by omega) (Nat.le_refl i)
      have rest := induction (i + 1)
        fun j upTo above => reads j (by omega) (by omega)
      rw [Nat.add_right_comm i 1 k] at rest
      rw [Nat.add_right_comm k 1 fuel, stpcpy, if_neg here]
      exact rest

/-- The destination begins inside of the source, or at its terminator. -/
def Chases
    (dest src length : Nat) :
    Prop :=
  src < dest ∧ dest ≤ src + length

instance (dest src length : Nat) : Decidable (Chases dest src length) :=
  inferInstanceAs (Decidable (_ ∧ _))

/-- Then the terminator is overwritten before it is read. -/
theorem stpcpy_chases
    (isString : StringAt mem src a)
    (chases : Chases dest src a.length)
    (fuel : Nat) :
    stpcpy fuel dest src mem = none := by
  rcases chases with ⟨lt, upTo⟩
  have runs := @stpcpy_forward mem dest src 0 0 fuel fun j _ _ => by
    have small := Nat.mod_lt j (show 0 < dest - src by omega)
    rw [origin, if_pos lt]
    exact isString.nonzero _ (by omega)
  exact runs

theorem origin_apart
    {length i : Nat}
    (apart : ¬ Chases dest src length)
    (inside : i ≤ length) :
    origin dest src i = src + i := by
  by_cases le : dest ≤ src
  · exact origin_of_le le i
  · apply origin_of_lt
    rw [Chases] at apart
    omega

/-- The memory with a string and its terminator copied from the front. -/
def copied
    (dest src length : Nat)
    (mem : Bytes) :
    Bytes :=
  Function.update (forward dest src mem length) (dest + length) 0

/-- Otherwise the loop comes to its end. -/
theorem stpcpy_apart
    (isString : StringAt mem src a)
    (apart : ¬ Chases dest src a.length)
    (fuel : Nat) :
    stpcpy fuel dest src mem =
      if a.length < fuel then
        some (src + a.length, copied dest src a.length mem)
      else none := by
  have reads : ∀ j < a.length, mem (origin dest src j) ≠ 0 := by
    intro j inside
    rw [origin_apart apart (Nat.le_of_lt inside)]
    exact isString.nonzero j inside
  by_cases enough : a.length < fuel
  · have runs := @stpcpy_forward mem dest src (fuel - a.length - 1 + 1) 0
      a.length fun j upTo _ => reads j (by omega)
    have whole : a.length + (fuel - a.length - 1 + 1) = fuel := by omega
    have stop : forward dest src mem a.length (src + a.length) = 0 := by
      rw [forward_source, origin_apart apart (Nat.le_refl _)]
      exact isString.stop
    rw [whole, Nat.zero_add, stpcpy, if_pos stop] at runs
    rw [if_pos enough]
    exact runs
  · have runs := @stpcpy_forward mem dest src 0 0 fuel
      fun j upTo _ => reads j (by omega)
    rw [if_neg enough]
    exact runs

theorem strcpy_apart
    (isString : StringAt mem src a)
    (apart : ¬ Chases dest src a.length)
    (enough : a.length < fuel) :
    strcpy fuel dest src mem = some (copied dest src a.length mem) := by
  rw [strcpy, stpcpy_apart isString apart, if_pos enough]
  rfl

/-- What a copy which ends has done. -/
theorem copied_string
    (isString : StringAt mem src a)
    (apart : ¬ Chases dest src a.length) :
    StringAt (copied dest src a.length mem) dest a := by
  have arrives : ∀ i < a.length,
      copied dest src a.length mem (dest + i) = mem (src + i) := by
    intro i inside
    rw [copied, Function.update_of_ne (by omega), forward_inside inside,
      origin_apart apart (Nat.le_of_lt inside)]
  refine ⟨fun i inside => ?_, fun i inside => ?_, Function.update_self ..⟩
  · rw [arrives i inside]
    exact isString.bytes i inside
  · rw [arrives i inside]
    exact isString.nonzero i inside

theorem copied_elsewhere
    {length address : Nat}
    (outside : address < dest ∨ dest + length < address) :
    copied dest src length mem address = mem address := by
  rw [copied, Function.update_of_ne (by omega), forward_outside (by omega)]

/--
`strcpy` ends exactly if the destination does not begin inside of the string
or at its terminator.  Then the string stands at the destination, also if the
two overlap, and nothing behind its terminator has changed.
-/
theorem strcpy_returns_iff
    (isString : StringAt mem src a)
    (dest : Nat) :
    ((∃ fuel result, strcpy fuel dest src mem = some result) ↔
      ¬ Chases dest src a.length) ∧
      ∀ fuel result, strcpy fuel dest src mem = some result →
        StringAt result dest a ∧
          ∀ address, address < dest ∨ dest + a.length < address →
            result address = mem address := by
  by_cases chases : Chases dest src a.length
  · have never (fuel : Nat) : strcpy fuel dest src mem = none := by
      rw [strcpy, stpcpy_chases isString chases]
      rfl
    constructor
    · refine iff_of_false ?_ (not_not.mpr chases)
      rintro ⟨fuel, result, returns⟩
      rw [never] at returns
      cases returns
    · intro fuel result returns
      rw [never] at returns
      cases returns
  · constructor
    · exact iff_of_true
        ⟨a.length + 1, _, strcpy_apart isString chases (Nat.lt_succ_self _)⟩
        chases
    · intro fuel result returns
      rw [strcpy, stpcpy_apart isString chases] at returns
      split at returns
      · cases returns
        exact ⟨copied_string isString chases,
          fun address outside => copied_elsewhere outside⟩
      · cases returns

end

/-- "/etc/" at 8 and "passwd" at 32. -/
def twoStrings : Bytes :=
  fun address =>
    if address < 32 then
      ([47, 101, 116, 99, 47] : CString).getD (address - 8) 0
    else ([112, 97, 115, 115, 119, 100] : CString).getD (address - 32) 0

theorem twoStrings_cwd : StringAt twoStrings 8 [47, 101, 116, 99, 47] :=
  ⟨by decide, by decide, by decide⟩

theorem twoStrings_rel :
    StringAt twoStrings 32 [112, 97, 115, 115, 119, 100] :=
  ⟨by decide, by decide, by decide⟩

/-- "/etc/" can be moved to the front but not to the back. -/
theorem strcpy_returns_iff_etc :
    (∃ fuel result, strcpy fuel 7 8 twoStrings = some result) ∧
      ¬ ∃ fuel result, strcpy fuel 9 8 twoStrings = some result :=
  ⟨(strcpy_returns_iff twoStrings_cwd 7).1.mpr (by decide),
    fun returns =>
      (strcpy_returns_iff twoStrings_cwd 9).1.mp returns (by decide)⟩

/-! ## Paths -/

section

variable
  {mem : Bytes}
  {s fuel : Nat}
  {a b : CString}

/-- Two strings one behind the other are one string. -/
theorem StringAt.append
    (first : ∀ i < a.length, a[i]? = some (mem (s + i)) ∧ mem (s + i) ≠ 0)
    (second : StringAt mem (s + a.length) b) :
    StringAt mem s (a ++ b) := by
  have behind (i : Nat) (beyond : a.length ≤ i) :
      s + a.length + (i - a.length) = s + i := by
    omega
  refine ⟨fun i inside => ?_, fun i inside => ?_, ?_⟩
  · rw [List.length_append] at inside
    by_cases before : i < a.length
    · rw [List.getElem?_append_left before]
      exact (first i before).1
    · rw [List.getElem?_append_right (by omega),
        second.bytes _ (by omega), behind i (by omega)]
  · rw [List.length_append] at inside
    by_cases before : i < a.length
    · exact (first i before).2
    · rw [← behind i (by omega)]
      exact second.nonzero _ (by omega)
  · rw [List.length_append, ← Nat.add_assoc]
    exact second.stop

/-- The area of these many bytes shares none with the string. -/
def ApartFrom
    (start length s : Nat)
    (a : CString) :
    Prop :=
  start + length ≤ s ∨ s + a.length < start

theorem ApartFrom.not_chases
    {start length : Nat}
    (apart : ApartFrom start length s a)
    {place : Nat}
    (inside : start ≤ place ∧ place < start + length) :
    ¬ Chases place s a.length := by
  rw [ApartFrom] at apart
  rw [Chases]
  omega

/--
`new_prepend_cwd` asks for just the bytes of the working directory, the path
and a terminator.  In any area of that size which is apart from both of them it
leaves the one behind the other, and it writes nothing else.
-/
theorem newPrependCwd_joins
    {cwd rel fullPath : Nat}
    (isCwd : StringAt mem cwd a)
    (isRel : StringAt mem rel b)
    (enough : a.length < fuel ∧ b.length < fuel)
    (apartCwd : ApartFrom fullPath (a.length + b.length + 1) cwd a)
    (apartRel : ApartFrom fullPath (a.length + b.length + 1) rel b) :
    fullLen fuel cwd rel mem = some (a.length + b.length + 1) ∧
      ∃ result, newPrependCwd fuel fullPath cwd rel mem = some result ∧
        StringAt result fullPath (a ++ b) ∧
        ∀ address, address < fullPath ∨
          fullPath + (a.length + b.length + 1) ≤ address →
            result address = mem address := by
  have cwdLen := strlen_eq isCwd enough.1
  have relLen := strlen_eq isRel enough.2
  have notCwd : ¬ Chases fullPath cwd a.length :=
    apartCwd.not_chases ⟨Nat.le_refl _, by omega⟩
  have notRel : ¬ Chases (fullPath + a.length) rel b.length :=
    apartRel.not_chases ⟨by omega, by omega⟩
  have first := strcpy_apart isCwd notCwd enough.1
  have isRel' : StringAt (copied fullPath cwd a.length mem) rel b := by
    apply isRel.congr
    intro i inside
    apply copied_elsewhere
    rw [ApartFrom] at apartRel
    omega
  have second := strcpy_apart isRel' notRel enough.2
  refine ⟨?_, _, ?_, StringAt.append ?_ (copied_string isRel' notRel), ?_⟩
  · rw [fullLen, cwdLen, relLen]
    rfl
  · rw [newPrependCwd, cwdLen, first]
    exact second
  · have whole := copied_string isCwd notCwd
    intro i inside
    rw [copied_elsewhere (.inl (by omega))]
    exact ⟨whole.bytes i inside, whole.nonzero i inside⟩
  · intro address outside
    rw [copied_elsewhere (by omega), copied_elsewhere (by omega)]

end

theorem newPrependCwd_joins_passwd :
    ∃ result, newPrependCwd 7 64 8 32 twoStrings = some result ∧
      StringAt result 64
        [47, 101, 116, 99, 47, 112, 97, 115, 115, 119, 100] := by
  rcases @newPrependCwd_joins twoStrings 7 _ _ 8 32 64 twoStrings_cwd
    twoStrings_rel (by decide) (.inr (by decide)) (.inr (by decide)) with
      ⟨_, result, returns, joined, _⟩
  exact ⟨result, returns, joined⟩

end ForsKernel.Forslib.Overlaps
