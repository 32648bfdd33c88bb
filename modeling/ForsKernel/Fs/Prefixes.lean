import ForsKernel.Fs.Path

/-!
# Comparing names

`strncmp` compares the common part of two strings only, so that it takes a
name for any other which starts with it or with which it starts.  A search
through several names finds the first of these.
-/

namespace ForsKernel.Fs

/-! ## Comparing strings -/

/-- One of the strings starts with the other. -/
def Comparable (s t : CString) : Prop :=
  s <+: t ∨ t <+: s

instance (s t : CString) : Decidable (Comparable s t) :=
  inferInstanceAs (Decidable (_ ∨ _))

/-- One of the strings is a proper prefix of the other. -/
def Overlaps (s t : CString) : Prop :=
  Comparable s t ∧ s ≠ t

instance (s t : CString) : Decidable (Overlaps s t) :=
  inferInstanceAs (Decidable (_ ∧ _))

theorem Comparable.refl (s : CString) : Comparable s s :=
  .inl (List.prefix_rfl)

/-- Strings are compared by their common part. -/
theorem comparable_iff_take (s t : CString) :
    Comparable s t ↔ s.take (min s.length t.length) =
      t.take (min s.length t.length) := by
  rcases Nat.le_total s.length t.length with shorter | longer
  · rw [min_eq_left shorter, List.take_length, ← List.prefix_iff_eq_take]
    constructor
    · rintro (isPrefix | isPrefix)
      · exact isPrefix
      · cases isPrefix.eq_of_length_le shorter
        exact List.prefix_rfl
    · exact .inl
  · rw [min_eq_right longer, List.take_length, eq_comm,
      ← List.prefix_iff_eq_take]
    constructor
    · rintro (isPrefix | isPrefix)
      · cases isPrefix.eq_of_length_le longer
        exact List.prefix_rfl
      · exact isPrefix
    · exact .inr

theorem memcmp_eq_zero
    {s t : CString}
    {n : Nat}
    (left : n ≤ s.length)
    (right : n ≤ t.length) :
    memcmp s t n = 0 ↔ s.take n = t.take n := by
  induction n generalizing s t with
  | zero => simp [memcmp]
  | succ n induction =>
      cases s with
      | nil => cases left
      | cons a s =>
          cases t with
          | nil => cases right
          | cons b t =>
              have rest := induction (Nat.le_of_succ_le_succ left)
                (Nat.le_of_succ_le_succ right)
              simp only [memcmp, List.headD_cons, List.tail_cons,
                List.take_succ_cons, List.cons.injEq]
              by_cases same : a = b
              · simp [same, rest]
              · have differ : a.toInt8.toInt - b.toInt8.toInt ≠ 0 := by
                  intro zero
                  have bytes := Int8.toInt_inj.mp (Int.sub_eq_zero.mp zero)
                  exact same (congrArg Int8.toUInt8 bytes)
                simp [same, differ]

theorem strncmp_eq_zero
    (s t : CString)
    (n : Nat) :
    strncmp s t n = 0 ↔ Comparable (s.take n) (t.take n) := by
  have common : min (min n s.length) (min n t.length) =
      min (strnlen s n) (strnlen t n) := by
    rw [strnlen_eq, strnlen_eq]
    omega
  have short : min (strnlen s n) (strnlen t n) ≤ n := by
    rw [strnlen_eq]
    omega
  rw [comparable_iff_take, List.length_take, List.length_take, common,
    List.take_take, List.take_take, min_eq_left short, strncmp]
  apply memcmp_eq_zero
  · rw [strnlen_eq]
    omega
  · rw [strnlen_eq t]
    omega

/-- Only as much of a string matters as the other one is long. -/
theorem comparable_take_left {s t : CString} :
    Comparable (s.take t.length) t ↔ Comparable s t := by
  have common : min (min t.length s.length) t.length =
      min s.length t.length := by omega
  have short : min s.length t.length ≤ t.length := by omega
  rw [comparable_iff_take, comparable_iff_take, List.length_take, common,
    List.take_take, min_eq_left short]

/-- A name of this length is compared with another as a whole. -/
theorem strncmp_name
    {name : CString}
    {len : Nat}
    (inside : len ≤ name.length)
    (other : CString) :
    strncmp other name len = 0 ↔ Comparable other (name.take len) := by
  have length : (name.take len).length = len := by
    rw [List.length_take]
    omega
  have whole : Comparable (other.take (name.take len).length) (name.take len) ↔
      Comparable other (name.take len) := comparable_take_left
  rw [strncmp_eq_zero, ← whole, length]

theorem Comparable.comm {s t : CString} :
    Comparable s t ↔ Comparable t s :=
  or_comm

theorem strncmp_name_left
    {name : CString}
    {len : Nat}
    (inside : len ≤ name.length)
    (other : CString) :
    strncmp name other len = 0 ↔ Comparable other (name.take len) := by
  rw [strncmp_eq_zero, Comparable.comm, ← strncmp_eq_zero,
    strncmp_name inside]

/-! ## The first of several names -/

/-- Every name that overlaps with this one stands behind the same name. -/
def Unshadowed
    (name : CString)
    (others : List CString) :
    Prop :=
  ∀ before other after, others = before ++ other :: after →
    Overlaps other name → name ∈ before

theorem unshadowed_cons
    {name other : CString}
    {others : List CString} :
    Unshadowed name (other :: others) ↔
      if Comparable other name then other = name
      else Unshadowed name others := by
  split
  · rename_i comparable
    constructor
    · intro unshadowed
      by_contra different
      have before := unshadowed [] other others rfl ⟨comparable, different⟩
      cases before
    · rintro rfl before second after split overlaps
      cases before with
      | nil =>
          cases split
          exact (overlaps.2 rfl).elim
      | cons first before =>
          cases split
          exact List.mem_cons_self
  · rename_i incomparable
    constructor
    · intro unshadowed before second after split overlaps
      have later := unshadowed (other :: before) second after
        (by rw [split, List.cons_append]) overlaps
      rcases List.mem_cons.mp later with rfl | inside
      · exact (incomparable (.refl _)).elim
      · exact inside
    · intro unshadowed before second after split overlaps
      cases before with
      | nil =>
          cases split
          exact (incomparable overlaps.1).elim
      | cons first before =>
          rw [List.cons_append] at split
          cases split
          exact List.mem_cons_of_mem _ (unshadowed before second after rfl
            overlaps)

/-- Behind the name itself nothing shadows it any more. -/
theorem unshadowed_append
    {name : CString}
    {others more : List CString} :
    Unshadowed name (others ++ more) ↔
      Unshadowed name others ∧ (name ∈ others ∨ Unshadowed name more) := by
  induction others with
  | nil => simp [Unshadowed]
  | cons other others induction =>
      rw [List.cons_append, unshadowed_cons, unshadowed_cons, induction]
      by_cases comparable : Comparable other name
      · rw [if_pos comparable, if_pos comparable]
        constructor
        · rintro rfl
          exact ⟨rfl, .inl List.mem_cons_self⟩
        · exact And.left
      · have different : name ≠ other := by
          rintro rfl
          exact comparable (.refl _)
        rw [if_neg comparable, if_neg comparable, List.mem_cons]
        simp [different]

/-- An empty name stands for every name. -/
theorem unshadowed_replicate_nil
    {name : CString}
    (nonempty : name ≠ [])
    (count : Nat) :
    Unshadowed name (List.replicate count []) ↔ count = 0 := by
  cases count with
  | zero => simp [Unshadowed]
  | succ count =>
      have comparable : Comparable [] name := .inl List.nil_prefix
      rw [List.replicate_succ, unshadowed_cons, if_pos comparable]
      simp [nonempty.symm]

section

variable
  {α : Type*}
  {label : α → CString}
  {name : CString}
  {cells : List α}

/-- The first name found is the right one just when it is unshadowed. -/
theorem find?_comparable_iff :
    (∀ cell, cells.find? (fun cell => decide (Comparable (label cell) name)) =
        some cell → label cell = name) ↔
      Unshadowed name (cells.map label) := by
  induction cells with
  | nil => simp [Unshadowed]
  | cons first cells induction =>
      rw [List.map_cons, unshadowed_cons, ← induction]
      by_cases comparable : Comparable (label first) name
      · simp [comparable]
      · simp [comparable]

/-- Then it is as good to look for this name only. -/
theorem Unshadowed.find?_eq (unshadowed : Unshadowed name (cells.map label)) :
    cells.find? (fun cell => decide (Comparable (label cell) name)) =
      cells.find? fun cell => decide (label cell = name) := by
  induction cells with
  | nil => rfl
  | cons first cells induction =>
      rw [List.map_cons, unshadowed_cons] at unshadowed
      by_cases comparable : Comparable (label first) name
      · rw [if_pos comparable] at unshadowed
        simp [unshadowed, Comparable.refl]
      · rw [if_neg comparable] at unshadowed
        have different : label first ≠ name := by
          rintro same
          exact comparable (same ▸ .refl _)
        simp [comparable, different, induction unshadowed]

end

end ForsKernel.Fs
