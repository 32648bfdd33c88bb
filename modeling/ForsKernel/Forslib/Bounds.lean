import ForsKernel.Forslib.Strings
import ForsKernel.Store.StoreTypes

/-!
# Reading at a bound

`strnlen` and `stpncpy` read a byte before they look at the count, so that a
field which is full of characters is read one byte behind its end.  All the
bounded functions do so, and the lookup of a store type with them.
-/

namespace ForsKernel.Forslib

open ForsKernel.Fs (CString)
open ForsKernel.BufferCache (StoreTypes maxStoretypes)

variable {s t : Buffer}

/-- Without a terminator the length is looked for behind the end. -/
theorem strnlen_full
    {n : Nat}
    (short : s.length ≤ n)
    (full : 0 ∉ s) :
    strnlen s n = .error .read := by
  induction s generalizing n with
  | nil => rfl
  | cons b s induction =>
      rw [List.mem_cons, not_or] at full
      rw [List.length_cons] at short
      have nonzero : b ≠ 0 := fun zero => full.1 zero.symm
      have rest := @induction (n - 1) (by omega) full.2
      have positive : 0 < n := by omega
      simp [strnlen, nonzero, positive, rest, Except.map]

theorem stpncpy_full
    {dest : Buffer}
    {n : Nat}
    (short : s.length ≤ n)
    (full : 0 ∉ s)
    (room : s.length ≤ dest.length) :
    stpncpy dest s n = .error .read := by
  induction s generalizing dest n with
  | nil => rw [stpncpy]
  | cons b s induction =>
      rw [List.mem_cons, not_or] at full
      rw [List.length_cons] at short room
      have nonzero : b ≠ 0 := fun zero => full.1 zero.symm
      cases dest with
      | nil => cases room
      | cons d dest =>
          have rest := @induction dest (n - 1) (by omega) full.2
            (Nat.le_of_succ_le_succ room)
          have positive : 0 < n := by omega
          simp [stpncpy, nonzero, positive, rest, Except.map]

theorem strncmp_full_left
    {n : Nat}
    (short : s.length ≤ n)
    (full : 0 ∉ s) :
    strncmp s t n = .error .read := by
  rw [strncmp, strnlen_full short full, error_bind]

/-- Nothing but reads goes wrong in a length. -/
theorem strnlen_cases
    (s : Buffer)
    (n : Nat) :
    strnlen s n = .error .read ∨ ∃ l, strnlen s n = .ok l := by
  induction s generalizing n with
  | nil => exact .inl rfl
  | cons b s induction =>
      rw [strnlen]
      split
      · rcases induction (n - 1) with fault | ⟨l, length⟩
        · exact .inl (by rw [fault]; rfl)
        · exact .inr ⟨l + 1, by rw [length]; rfl⟩
      · exact .inr ⟨0, rfl⟩

theorem strncmp_full_right
    {n : Nat}
    (short : t.length ≤ n)
    (full : 0 ∉ t) :
    strncmp s t n = .error .read := by
  rw [strncmp, strnlen_full short full]
  rcases strnlen_cases s n with fault | ⟨l, length⟩
  · rw [fault, error_bind]
  · rw [length, ok_bind, error_bind]

/-! ## Store types -/

/-- The loop of `find_storetype`, over the fields from `id` on. -/
def findStoretypeFrom
    (names : Nat → Buffer)
    (name : Buffer) :
    Nat → Nat → Except Fault Int
  | 0, _ => .ok (-1)
  | left + 1, id => do
      let order ← strncmp name (names id) 8
      if order = 0 then .ok id else findStoretypeFrom names name left (id + 1)

/-- `find_storetype`, on the `name` fields of `store_types`. -/
def findStoretype
    (names : Nat → Buffer)
    (name : Buffer) :
    Except Fault Int :=
  findStoretypeFrom names name maxStoretypes 0

theorem findStoretypeFrom_eq
    {β : Type}
    {types : StoreTypes β}
    {names : Nat → Buffer}
    {name : Buffer}
    {a : CString}
    (isName : Terminated name a)
    (fields : ∀ id, Terminated (names id) (types.nameAt id))
    (left id : Nat) :
    findStoretypeFrom names name left id =
      .ok (((List.range' id left).find? fun id =>
        Fs.strncmp a (types.nameAt id) 8 == 0).elim (-1) Nat.cast) := by
  induction left generalizing id with
  | zero => rfl
  | succ left induction =>
      rw [findStoretypeFrom, isName.strncmp (fields id), ok_bind,
        List.range'_succ, List.find?_cons]
      by_cases same : Fs.strncmp a (types.nameAt id) 8 = 0
      · simp [same]
      · have differ : (Fs.strncmp a (types.nameAt id) 8 == 0) = false :=
          beq_eq_false_iff_ne.mpr same
        rw [if_neg same, differ, induction]

/-- On fields which have a terminator the lookup is that of the tables. -/
theorem findStoretype_eq
    {β : Type}
    {types : StoreTypes β}
    {names : Nat → Buffer}
    {name : Buffer}
    {a : CString}
    (isName : Terminated name a)
    (fields : ∀ id, Terminated (names id) (types.nameAt id)) :
    findStoretype names name =
      .ok (BufferCache.findStoretype types a) := by
  rw [findStoretype, findStoretypeFrom_eq isName fields,
    BufferCache.findStoretype, List.range_eq_range']
  cases (List.range' 0 maxStoretypes).find? fun id =>
    Fs.strncmp a (types.nameAt id) 8 == 0 <;> rfl

/--
On a field which is full no bounded function stays inside of the field, and a
store type is not found without leaving a full name.
-/
theorem bounded_reads_overrun
    {n : Nat}
    (size : s.length = n)
    (full : 0 ∉ s) :
    strnlen s n = .error .read ∧
      (∀ t, strncmp s t n = .error .read) ∧
      (∀ c, strnchr s c n = .error .read) ∧
      (∀ c, strnrchr s c n = .error .read) ∧
      (∀ dest : Buffer, n ≤ dest.length →
        stpncpy dest s n = .error .read) ∧
      (n = 8 → (∀ names, findStoretype names s = .error .read) ∧
        ∀ names name, names 0 = s →
          findStoretype names name = .error .read) := by
  have short : s.length ≤ n := Nat.le_of_eq size
  have length := strnlen_full short full
  refine ⟨length, fun t => strncmp_full_left short full, ?_, ?_, ?_, ?_⟩
  · intro c
    rw [strnchr, length, error_bind]
  · intro c
    rw [strnrchr, length, error_bind]
  · intro dest room
    exact stpncpy_full short full (by omega)
  · rintro rfl
    constructor
    · intro names
      rw [findStoretype, maxStoretypes, findStoretypeFrom,
        strncmp_full_left short full, error_bind]
    · rintro names name rfl
      rw [findStoretype, maxStoretypes, findStoretypeFrom,
        strncmp_full_right short full, error_bind]

/-- A name of eight letters. -/
theorem bounded_reads_overrun_eight :
    strnlen (List.replicate 8 97) 8 = .error .read ∧
      (∀ t, strncmp (List.replicate 8 97) t 8 = .error .read) ∧
      (∀ c, strnchr (List.replicate 8 97) c 8 = .error .read) ∧
      (∀ c, strnrchr (List.replicate 8 97) c 8 = .error .read) ∧
      (∀ dest : Buffer, 8 ≤ dest.length →
        stpncpy dest (List.replicate 8 97) 8 = .error .read) ∧
      (8 = 8 →
        (∀ names, findStoretype names (List.replicate 8 97) =
          .error .read) ∧
        ∀ names name, names 0 = List.replicate 8 97 →
          findStoretype names name = .error .read) :=
  @bounded_reads_overrun (List.replicate 8 97) 8 rfl (by decide)

/-- The byte behind a full field of eight bytes is read. -/
theorem strnlen_reads_behind :
    strnlen [97, 97, 97, 97, 97, 97, 97, 97] 8 = .error .read ∧
      strnlen [97, 97, 97, 97, 97, 97, 97, 97, 5] 8 = .ok 8 := by
  decide

end ForsKernel.Forslib
