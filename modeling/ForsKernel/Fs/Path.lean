import Mathlib.Data.List.Basic
import Mathlib.Data.List.TakeWhile

/-!
# Paths

The string functions which path handling uses, on C strings: the bytes before
the terminator, with a pointer into a string as the rest of it.  The functions
which return a pointer into their argument return its offset.

`components` says what a path is: the names between its slashes.
-/

namespace ForsKernel.Fs

/-- The bytes of a string before its terminator. -/
abbrev CString := List UInt8

/-- The character `/`. -/
def slash : UInt8 := 47

/-! ## String functions -/

def strnlen : CString → Nat → Nat
  | [], _ => 0
  | _ :: _, 0 => 0
  | _ :: s, n + 1 => strnlen s n + 1

def memchr (c : UInt8) : CString → Nat → Option Nat
  | _, 0 => none
  | [], _ + 1 => none
  | b :: m, n + 1 =>
      if b = c then some 0 else (memchr c m n).map (· + 1)

def memrchr
    (c : UInt8)
    (m : CString) :
    Nat → Option Nat
  | 0 => none
  | n + 1 => if m[n]? = some c then some n else memrchr c m n

/-- Characters are signed and end at the terminator. -/
def memcmp : CString → CString → Nat → Int
  | _, _, 0 => 0
  | sa, sb, n + 1 =>
      let a := sa.headD 0
      let b := sb.headD 0
      if a ≠ b then a.toInt8.toInt - b.toInt8.toInt
      else memcmp sa.tail sb.tail n

def strncmp
    (s1 s2 : CString)
    (n : Nat) :
    Int :=
  memcmp s1 s2 (min (strnlen s1 n) (strnlen s2 n))

def strnchr
    (s : CString)
    (c : UInt8)
    (n : Nat) :
    Option Nat :=
  memchr c s (strnlen s n)

/-- The loop of `first_of_trailing`, with `end + 1` as its counter. -/
def trimTrailing (s : CString) : Nat → Nat
  | 0 => 0
  | n + 1 => if s[n]? = some slash then trimTrailing s n else n + 1

def firstOfTrailing (s : CString) : Nat :=
  trimTrailing s s.length

/-- What follows the last slash which is not trailing, if there is one. -/
def basename (path : CString) : Option CString :=
  (memrchr slash path (firstOfTrailing path)).map fun delim =>
    path.drop (delim + 1)

theorem strnlen_eq
    (s : CString)
    (n : Nat) :
    strnlen s n = min s.length n := by
  induction s generalizing n with
  | nil => simp [strnlen]
  | cons b s induction =>
      cases n with
      | zero => simp [strnlen]
      | succ n =>
          rw [strnlen, induction, List.length_cons]
          omega

/-- A search which fails has seen no such byte. -/
theorem memchr_eq_none
    {c : UInt8}
    {m : CString}
    {n : Nat}
    (missing : memchr c m n = none) :
    ∀ k < n, m[k]? ≠ some c := by
  induction m generalizing n with
  | nil => simp
  | cons b m induction =>
      cases n with
      | zero => simp
      | succ n =>
          rw [memchr] at missing
          split at missing
          · cases missing
          · rename_i different
            intro k lt
            cases k with
            | zero => simpa using different
            | succ k =>
                rw [List.getElem?_cons_succ]
                exact induction (Option.map_eq_none_iff.mp missing) k
                  (by omega)

/-- A search which succeeds has found the first such byte. -/
theorem memchr_eq_some
    {c : UInt8}
    {m : CString}
    {n d : Nat}
    (found : memchr c m n = some d) :
    d < n ∧ m[d]? = some c ∧ ∀ k < d, m[k]? ≠ some c := by
  induction m generalizing n d with
  | nil =>
      cases n <;> cases found
  | cons b m induction =>
      cases n with
      | zero => cases found
      | succ n =>
          rw [memchr] at found
          split at found
          · rename_i same
            cases found
            exact ⟨by omega, by simp [same], by simp⟩
          · rename_i different
            rcases Option.map_eq_some_iff.mp found with ⟨e, later, rfl⟩
            rcases induction later with ⟨lt, here, first⟩
            refine ⟨by omega, by simpa using here, ?_⟩
            intro k before
            cases k with
            | zero => simpa using different
            | succ k =>
                rw [List.getElem?_cons_succ]
                exact first k (by omega)

/-- A search from the end finds the last such byte. -/
theorem memrchr_eq_some
    {c : UInt8}
    {m : CString}
    {n d : Nat}
    (found : memrchr c m n = some d) :
    d < n ∧ m[d]? = some c ∧ ∀ k, d < k → k < n → m[k]? ≠ some c := by
  induction n with
  | zero => cases found
  | succ n induction =>
      rw [memrchr] at found
      split at found
      · rename_i here
        cases found
        exact ⟨by omega, here, fun k above below => by omega⟩
      · rename_i different
        rcases induction found with ⟨lt, here, last⟩
        refine ⟨by omega, here, ?_⟩
        intro k above below
        by_cases final : k = n
        · subst final
          exact different
        · exact last k above (by omega)

/-- A search from the end finds such a byte if there is one. -/
theorem memrchr_isSome
    {c : UInt8}
    {m : CString}
    {n d : Nat}
    (lt : d < n)
    (here : m[d]? = some c) :
    ∃ last, memrchr c m n = some last ∧ d ≤ last := by
  induction n with
  | zero => exact (Nat.not_lt_zero _ lt).elim
  | succ n induction =>
      rw [memrchr]
      split
      · exact ⟨n, rfl, by omega⟩
      · rename_i different
        apply induction
        have notHere : d ≠ n := by
          rintro rfl
          exact different here
        omega

/-- The string ends with slashes from offset `n` on, and not before it. -/
structure Trimmed
    (s : CString)
    (n : Nat) :
    Prop where
  le : n ≤ s.length
  after : ∀ k b, n ≤ k → s[k]? = some b → b = slash
  before : 0 < n → s[n - 1]? ≠ some slash

theorem trimTrailing_trimmed
    {s : CString}
    {n : Nat}
    (le : n ≤ s.length)
    (after : ∀ k b, n ≤ k → s[k]? = some b → b = slash) :
    Trimmed s (trimTrailing s n) := by
  induction n with
  | zero => exact ⟨le, after, fun positive => (Nat.lt_irrefl 0 positive).elim⟩
  | succ n induction =>
      rw [trimTrailing]
      split
      · rename_i trailing
        apply induction (by omega)
        intro k b above here
        by_cases last : k = n
        · subst last
          rw [trailing] at here
          exact (Option.some.inj here).symm
        · exact after k b (by omega) here
      · rename_i stop
        exact ⟨le, after, fun _ => stop⟩

theorem firstOfTrailing_trimmed (s : CString) :
    Trimmed s (firstOfTrailing s) := by
  apply trimTrailing_trimmed le_rfl
  intro k b above here
  rw [List.getElem?_eq_none above] at here
  cases here

/-- Behind a slash which is not trailing something else follows. -/
theorem Trimmed.drop
    {s : CString}
    {n d : Nat}
    (trimmed : Trimmed s n)
    (lt : d < n)
    (here : s[d]? = some slash) :
    d + 1 < n ∧ Trimmed (s.drop (d + 1)) (n - (d + 1)) := by
  have more : d + 1 < n := by
    have before := trimmed.before (by omega)
    by_contra close
    have last : n - 1 = d := by omega
    rw [last] at before
    exact before here
  have le := trimmed.le
  refine ⟨more, ?_, ?_, ?_⟩
  · rw [List.length_drop]
    omega
  · intro k b above there
    rw [List.getElem?_drop] at there
    exact trimmed.after _ b (by omega) there
  · intro _
    rw [List.getElem?_drop]
    have index : d + 1 + (n - (d + 1) - 1) = n - 1 := by omega
    rw [index]
    exact trimmed.before (by omega)

/-! ## The components of a path -/

/-- The rest of a path from a component on, and the component's length. -/
structure Component where
  name : CString
  len : Nat
deriving DecidableEq

/-- The components, where `fresh` says that a slash has just been seen. -/
def componentsFrom : Bool → CString → List Component
  | _, [] => []
  | fresh, b :: rest =>
      if b = slash then componentsFrom true rest
      else if fresh then
        ⟨b :: rest, ((b :: rest).takeWhile (· ≠ slash)).length⟩ ::
          componentsFrom false rest
      else componentsFrom false rest

/-- The non-empty names between the slashes of a path. -/
def components (path : CString) : List Component :=
  componentsFrom true path

theorem componentsFrom_false_append
    {name rest : CString}
    (plain : slash ∉ name) :
    componentsFrom false (name ++ slash :: rest) = components rest := by
  induction name with
  | nil => simp [componentsFrom, components]
  | cons b name induction =>
      rw [List.mem_cons, not_or] at plain
      rw [List.cons_append, componentsFrom, if_neg (Ne.symm plain.1),
        if_neg (by simp)]
      exact induction plain.2

theorem componentsFrom_slashes
    {s : CString}
    (fresh : Bool)
    (slashes : ∀ b ∈ s, b = slash) :
    componentsFrom fresh s = [] := by
  induction s generalizing fresh with
  | nil => rfl
  | cons b s induction =>
      rw [componentsFrom, if_pos (slashes b (by simp))]
      exact induction true fun other member =>
        slashes other (List.mem_cons_of_mem b member)

/-- A slash divides the components of a path. -/
theorem componentsFrom_split
    (fresh : Bool)
    (front rest : CString) :
    ∃ firsts, componentsFrom fresh (front ++ slash :: rest) =
        firsts ++ components rest ∧
      firsts.length = (componentsFrom fresh front).length := by
  induction front generalizing fresh with
  | nil => exact ⟨[], by simp [componentsFrom, components], rfl⟩
  | cons b front induction =>
      rw [List.cons_append, componentsFrom, componentsFrom]
      split_ifs with isSlash starts
      · exact induction true
      · rcases induction false with ⟨firsts, split, same⟩
        rw [split, ← List.cons_append]
        exact ⟨_, rfl, congrArg (· + 1) same⟩
      · exact induction false

/-- A path continues behind its first slash. -/
theorem components_append
    {name rest : CString}
    (plain : slash ∉ name) :
    components (name ++ slash :: rest) =
      (if name = [] then []
        else [⟨name ++ slash :: rest, name.length⟩]) ++ components rest := by
  cases name with
  | nil => simp [components, componentsFrom]
  | cons b name =>
      have different : b ≠ slash := by
        rintro rfl
        exact plain (by simp)
      have plainRest : slash ∉ name :=
        fun member => plain (List.mem_cons_of_mem b member)
      have whole : (List.takeWhile (· ≠ slash)
          (b :: (name ++ slash :: rest))).length = name.length + 1 := by
        rw [← List.cons_append, List.takeWhile_append_of_pos]
        · simp [slash]
        · intro other member
          simp only [decide_eq_true_eq]
          rintro rfl
          exact plain member
      rw [components, List.cons_append, componentsFrom, if_neg different,
        if_pos rfl, componentsFrom_false_append plainRest, whole]
      simp

/-- A path with a byte other than a slash has a component. -/
theorem components_ne_nil
    {s : CString}
    {k : Nat}
    {b : UInt8}
    (here : s[k]? = some b)
    (different : b ≠ slash) :
    components s ≠ [] := by
  induction s generalizing k with
  | nil => cases here
  | cons c s induction =>
      rw [components, componentsFrom]
      by_cases isSlash : c = slash
      · rw [if_pos isSlash]
        cases k with
        | zero =>
            cases here
            exact (different isSlash).elim
        | succ k => exact induction (by simpa using here)
      · rw [if_neg isSlash, if_pos rfl]
        exact List.cons_ne_nil _ _

theorem Trimmed.components_ne_nil
    {s : CString}
    {n : Nat}
    (trimmed : Trimmed s n)
    (positive : 0 < n) :
    components s ≠ [] := by
  have le := trimmed.le
  have inside : n - 1 < s.length := by omega
  have here := List.getElem?_eq_getElem inside
  apply Fs.components_ne_nil here
  intro isSlash
  apply trimmed.before positive
  rw [here, isSlash]

theorem componentsFrom_false_plain
    {name : CString}
    (plain : slash ∉ name) :
    componentsFrom false name = [] := by
  induction name with
  | nil => rfl
  | cons b name induction =>
      rw [List.mem_cons, not_or] at plain
      rw [componentsFrom, if_neg (Ne.symm plain.1), if_neg (by simp)]
      exact induction plain.2

/-- A name without slashes is a single component. -/
theorem components_plain
    {name : CString}
    (plain : slash ∉ name)
    (nonempty : name ≠ []) :
    components name = [⟨name, name.length⟩] := by
  cases name with
  | nil => exact (nonempty rfl).elim
  | cons b name =>
      have whole : (b :: name).takeWhile (· ≠ slash) = b :: name := by
        rw [List.takeWhile_eq_self_iff]
        intro other member
        simp only [decide_eq_true_eq]
        rintro rfl
        exact plain member
      rw [List.mem_cons, not_or] at plain
      rw [components, componentsFrom, if_neg (Ne.symm plain.1), if_pos rfl,
        componentsFrom_false_plain plain.2, whole]

/-- The part of a string before an offset and the part behind it. -/
theorem split_at_slash
    {s : CString}
    {d : Nat}
    (here : s[d]? = some slash) :
    s.take d ++ slash :: s.drop (d + 1) = s := by
  have lt : d < s.length := (List.getElem?_eq_some_iff.mp here).1
  have whole := List.take_append_drop d s
  rwa [List.drop_eq_getElem_cons lt,
    (List.getElem?_eq_some_iff.mp here).2] at whole

/-- A path continues behind the slash which a search found. -/
theorem components_at
    {s : CString}
    {d : Nat}
    (here : s[d]? = some slash)
    (first : ∀ k < d, s[k]? ≠ some slash) :
    components s =
      (if d = 0 then [] else [⟨s, d⟩]) ++ components (s.drop (d + 1)) := by
  have lt : d < s.length := (List.getElem?_eq_some_iff.mp here).1
  have split := (split_at_slash here).symm
  have plain : slash ∉ s.take d := by
    intro member
    rcases List.mem_iff_getElem?.mp member with ⟨k, there⟩
    rw [List.getElem?_take] at there
    split at there
    · exact first k (by assumption) there
    · cases there
  have length : (s.take d).length = d := by
    rw [List.length_take]
    omega
  have empty : s.take d = [] ↔ d = 0 := by
    rw [← List.length_eq_zero_iff, length]
  have appended : components (s.take d ++ slash :: s.drop (d + 1)) = _ :=
    components_append plain
  rw [← split, length] at appended
  rw [appended]
  simp only [empty]

/-- The directories behind a slash which is not trailing. -/
theorem Trimmed.next
    {str : CString}
    {path len finish : Nat}
    (trimmed : Trimmed (str.drop path) (finish - path))
    (lt : len < finish - path)
    (here : (str.drop path)[len]? = some slash)
    (first : ∀ k < len, (str.drop path)[k]? ≠ some slash) :
    len + 1 < finish - path ∧
      Trimmed (str.drop (path + len + 1)) (finish - (path + len + 1)) ∧
      (components (str.drop path)).dropLast =
        (if len = 0 then [] else [⟨str.drop path, len⟩]) ++
          (components (str.drop (path + len + 1))).dropLast := by
  rcases trimmed.drop lt here with ⟨more, rest⟩
  have left : finish - path - (len + 1) = finish - (path + len + 1) := by
    omega
  rw [List.drop_drop, left, ← Nat.add_assoc] at rest
  refine ⟨more, rest, ?_⟩
  rw [components_at here first, List.drop_drop, ← Nat.add_assoc,
    List.dropLast_append_of_ne_nil (rest.components_ne_nil (by omega))]

/-- Without a slash before the trailing ones there is one component. -/
theorem components_single
    {s : CString}
    {n : Nat}
    (trimmed : Trimmed s n)
    (missing : ∀ k < n, s[k]? ≠ some slash)
    (positive : 0 < n) :
    components s = [⟨s, n⟩] := by
  have length : (s.take n).length = n := by
    rw [List.length_take]
    exact min_eq_left trimmed.le
  have plain : slash ∉ s.take n := by
    intro member
    rcases List.mem_iff_getElem?.mp member with ⟨k, there⟩
    rw [List.getElem?_take] at there
    split at there
    · exact missing k (by assumption) there
    · cases there
  have nonempty : s.take n ≠ [] := by
    intro empty
    rw [empty, List.length_nil] at length
    omega
  have slashes : ∀ b ∈ s.drop n, b = slash := by
    intro b member
    rcases List.mem_iff_getElem?.mp member with ⟨k, there⟩
    rw [List.getElem?_drop] at there
    exact trimmed.after _ b (by omega) there
  have split := List.take_append_drop n s
  cases rest : s.drop n with
  | nil =>
      rw [rest, List.append_nil] at split
      have single := components_plain plain nonempty
      rwa [length, split] at single
  | cons b more =>
      rw [rest] at split slashes
      have isSlash : b = slash := slashes b (by simp)
      subst isSlash
      have appended : components (s.take n ++ slash :: more) = _ :=
        components_append plain
      have nothing : components more = [] :=
        componentsFrom_slashes true fun other member =>
          slashes other (List.mem_cons_of_mem _ member)
      rwa [split, length, if_neg nonempty, nothing, List.append_nil]
        at appended

theorem components_dropLast
    {s : CString}
    {n : Nat}
    (trimmed : Trimmed s n)
    (missing : ∀ k < n, s[k]? ≠ some slash) :
    (components s).dropLast = [] := by
  by_cases positive : 0 < n
  · rw [components_single trimmed missing positive]
    rfl
  · have slashes : ∀ b ∈ s, b = slash := by
      intro b member
      rcases List.mem_iff_getElem?.mp member with ⟨k, there⟩
      exact trimmed.after k b (by omega) there
    rw [components, componentsFrom_slashes true slashes]
    rfl

/-- The last component stands behind the last slash that is not trailing. -/
theorem components_last
    {s : CString}
    {n d : Nat}
    (trimmed : Trimmed s n)
    (isLast : memrchr slash s n = some d) :
    d + 1 < n ∧ ∃ firsts, components s =
      firsts ++ [⟨s.drop (d + 1), n - (d + 1)⟩] := by
  rcases memrchr_eq_some isLast with ⟨lt, delim, no_more⟩
  rcases trimmed.drop lt delim with ⟨more, rest⟩
  rcases componentsFrom_split true (s.take d) (s.drop (d + 1)) with
    ⟨firsts, split, _⟩
  have single : components (s.drop (d + 1)) =
      [⟨s.drop (d + 1), n - (d + 1)⟩] := by
    apply components_single rest _ (by omega)
    intro k below
    rw [List.getElem?_drop]
    exact no_more _ (by omega) (by omega)
  rw [split_at_slash delim, single] at split
  exact ⟨more, firsts, split⟩

/-- A name before a slash and a name behind it are two components. -/
theorem components_dropLast_ne_nil
    {s : CString}
    {n d k : Nat}
    {b : UInt8}
    (trimmed : Trimmed s n)
    (lt : d < n)
    (delim : s[d]? = some slash)
    (before : k < d)
    (here : s[k]? = some b)
    (different : b ≠ slash) :
    (components s).dropLast ≠ [] := by
  rcases trimmed.drop lt delim with ⟨more, rest⟩
  rcases componentsFrom_split true (s.take d) (s.drop (d + 1)) with
    ⟨firsts, split, same⟩
  have front : components (s.take d) ≠ [] := by
    have inside : (s.take d)[k]? = some b := by
      rw [List.getElem?_take, if_pos before, here]
    exact Fs.components_ne_nil inside different
  have back := rest.components_ne_nil (by omega)
  rw [split_at_slash delim] at split
  rw [components, split, List.dropLast_append_of_ne_nil back]
  intro nothing
  have empty := (List.append_eq_nil_iff.mp nothing).1
  rw [empty] at same
  exact front (List.length_eq_zero_iff.mp same.symm)

end ForsKernel.Fs
