import ForsKernel.Fs.PathWalk
import ForsKernel.Fs.TestFs

/-!
# The walk as a function of the components

`find_parent_checkperm` moves three pointers through a string until the next
slash is the last one.  `followChecked` looks the components of the path up
one after the other, and the two are the same function.  The last directory is
checked by the loop only if more than one slash stands before the last name;
otherwise the check is left to the callers.

For the kernel itself, which may enter any directory, nothing but the lookups
is left: `follow`.
-/

namespace ForsKernel.Fs

variable
  {ω : Type*}
  {mounts : Nat → FsOps ω}
  {p : Int}

/-! ## Following components -/

/-- Look the names up in order, each in the directory found before. -/
def follow (mounts : Nat → FsOps ω) :
    List Component → Nat → Vfs ω → Option (NodeResult ω)
  | [], node, vfs => some (some node, vfs)
  | component :: rest, node, vfs =>
      (getNodeWithLen mounts node component.name component.len vfs).bind fun
        | (none, vfs) => some (none, vfs)
        | (some child, vfs) =>
            if (vfs.fsnodes child).type ≠ .directory then some (none, vfs)
            else follow mounts rest child vfs

/--
The same for a process, which needs execute permission on every directory
found but the last, and on that one too if `strict`.
-/
def followChecked
    (mounts : Nat → FsOps ω)
    (p : Int)
    (strict : Bool) :
    List Component → Nat → Vfs ω → Option (NodeResult ω)
  | [], node, vfs => some (some node, vfs)
  | component :: rest, node, vfs =>
      (getNodeWithLen mounts node component.name component.len vfs).bind fun
        | (none, vfs) => some (none, vfs)
        | (some child, vfs) =>
            if (vfs.fsnodes child).type ≠ .directory then some (none, vfs)
            else if (rest ≠ [] ∨ strict = true) ∧
                canExec (vfs.fsnodes child) p = false then
              some (none, vfs)
            else followChecked mounts p strict rest child vfs

/--
More than one slash stands before the last name of a path, whose initial slash
has been skipped.
-/
def doubleSlash (str : CString) : Bool :=
  match memrchr slash str (firstOfTrailing str) with
  | some (d + 1) => str[d]? == some slash
  | _ => false

theorem doubleSlash_eq
    {str : CString}
    {d : Nat}
    (isLast : memrchr slash str (firstOfTrailing str) = some (d + 1)) :
    doubleSlash str = (str[d]? == some slash) := by
  rw [doubleSlash, isLast]

/-- The kernel may enter any directory. -/
theorem canExec_kernel (dir : FsNode) : canExec dir (-1) = true := by
  simp [canExec, grants]

theorem followChecked_kernel
    (strict : Bool)
    (components : List Component)
    (node : Nat)
    (vfs : Vfs ω) :
    followChecked mounts (-1) strict components node vfs =
      follow mounts components node vfs := by
  induction components generalizing node vfs with
  | nil => rfl
  | cons component rest induction =>
      rw [followChecked, follow]
      congr 1
      funext found
      rcases found with ⟨child, after⟩
      cases child with
      | none => rfl
      | some child => simp [canExec_kernel, induction]

/-! ## The loop -/

/--
If no directory is left to look up between two slashes, then the second one
stands directly behind another.
-/
theorem doubleSlash_of_nothing_left
    {str : CString}
    {first last : Nat}
    (isLast : memrchr slash str (firstOfTrailing str) = some last)
    (here : str[first]? = some slash)
    (before : first < last)
    (nothing : (components (str.drop (first + 1))).dropLast = []) :
    doubleSlash str = true := by
  rcases memrchr_eq_some isLast with ⟨lt, delim, _⟩
  rcases (firstOfTrailing_trimmed str).drop (by omega) here with ⟨_, rest⟩
  obtain ⟨d, rfl⟩ : ∃ d, last = d + 1 := ⟨last - 1, by omega⟩
  rw [doubleSlash_eq isLast, beq_iff_eq]
  by_contra different
  have between : first < d := by
    by_contra close
    have same : d = first := by omega
    rw [same] at different
    exact different here
  have inside : d < str.length := by
    have bound := (firstOfTrailing_trimmed str).le
    omega
  have byte := List.getElem?_eq_getElem inside
  have there : (str.drop (first + 1))[d + 1 - (first + 1)]? =
      some slash := by
    rw [List.getElem?_drop, Nat.add_sub_cancel' (by omega), delim]
  have name : (str.drop (first + 1))[d - (first + 1)]? = some str[d] := by
    rw [List.getElem?_drop, Nat.add_sub_cancel' (by omega), byte]
  apply components_dropLast_ne_nil rest (by omega) there (by omega) name _
    nothing
  intro isSlash
  rw [byte, isSlash] at different
  exact different rfl

/-- A slash directly behind a name is the last one only if it is alone. -/
theorem not_doubleSlash
    {str : CString}
    {path len : Nat}
    (positive : 0 < len)
    (isLast : some (path + len) = memrchr slash str (firstOfTrailing str))
    (first : ∀ k < len, (str.drop path)[k]? ≠ some slash) :
    doubleSlash str = false := by
  obtain ⟨k, rfl⟩ : ∃ k, len = k + 1 := ⟨len - 1, by omega⟩
  have before := first k (by omega)
  rw [List.getElem?_drop] at before
  rw [doubleSlash_eq isLast.symm]
  simpa using before

/-- A slash which is not the last one is followed by a name or by a slash. -/
theorem checked_later
    {str : CString}
    {d : Nat}
    (here : str[d]? = some slash)
    (lt : d < firstOfTrailing str)
    (notLast : some d ≠ memrchr slash str (firstOfTrailing str)) :
    (components (str.drop (d + 1))).dropLast ≠ [] ∨
      doubleSlash str = true := by
  rcases memrchr_isSome lt here with ⟨last, isLast, le⟩
  have before : d < last := by
    apply Nat.lt_of_le_of_ne le
    rintro rfl
    exact notLast isLast.symm
  by_cases nothing : (components (str.drop (d + 1))).dropLast = []
  · exact .inr (doubleSlash_of_nothing_left isLast here before nothing)
  · exact .inl nothing

/--
The loop follows all components but the last.  The induction is on the number
of turns, of which there are fewer than bytes left; `parent` has been checked.
-/
theorem walkPath_eq
    {str : CString}
    {fuel path parent : Nat}
    {vfs : Vfs ω}
    (enough : firstOfTrailing str - path < fuel)
    (directory : (vfs.fsnodes parent).type = .directory)
    (exec : canExec (vfs.fsnodes parent) p = true)
    (trimmed : Trimmed (str.drop path) (firstOfTrailing str - path)) :
    walkPath mounts p str (firstOfTrailing str)
        (memrchr slash str (firstOfTrailing str)) fuel path parent vfs =
      followChecked mounts p (doubleSlash str)
        (components (str.drop path)).dropLast parent vfs := by
  induction fuel generalizing path parent vfs with
  | zero => exact (Nat.not_lt_zero _ enough).elim
  | succ fuel induction =>
      rw [walkPath]
      rcases strnchr_cases trimmed with
        ⟨missing, plain⟩ | ⟨len, found, lt, here, first⟩
      · rw [missing, components_dropLast trimmed plain]
        rfl
      · rcases trimmed.next lt here first with ⟨more, rest, split⟩
        rw [split]
        have slashAt : str[path + len]? = some slash := by
          rwa [List.getElem?_drop] at here
        have nothing_left (isLast : some (path + len) =
            memrchr slash str (firstOfTrailing str)) :
            (components (str.drop (path + len + 1))).dropLast = [] := by
          have no_more := (memrchr_eq_some isLast.symm).2.2
          apply components_dropLast rest
          intro k below
          rw [List.getElem?_drop]
          exact no_more _ (by omega) (by omega)
        have onwards {node : Nat} {after : Vfs ω}
            (directory : (after.fsnodes node).type = .directory)
            (exec : canExec (after.fsnodes node) p = true) :=
          induction (by omega) directory exec rest
        simp only [found]
        by_cases empty : len = 0
        · -- an empty field: the directory is checked once more
          subst empty
          rw [if_neg (by omega), if_pos rfl, Option.bind_some, List.nil_append]
          simp only [directory, exec, ne_eq, not_true_eq_false, if_false,
            Bool.not_true, Bool.false_eq_true]
          split
          · rename_i isLast
            rw [nothing_left isLast]
            rfl
          · exact onwards directory exec
        · rw [if_pos (by omega), if_neg empty, List.singleton_append,
            followChecked]
          congr 1
          funext looked
          rcases looked with ⟨child, after⟩
          cases child with
          | none => rfl
          | some child =>
              by_cases file : (after.fsnodes child).type = .directory
              · simp only [file, ne_eq, not_true_eq_false, if_false]
                by_cases isLast : some (path + len) =
                    memrchr slash str (firstOfTrailing str)
                · rw [if_pos isLast, nothing_left isLast,
                    not_doubleSlash (by omega) isLast first]
                  simp [followChecked]
                · rw [if_neg isLast]
                  have later := checked_later slashAt (by omega) isLast
                  by_cases allowed : canExec (after.fsnodes child) p = true
                  · simp only [allowed]
                    simpa using onwards file allowed
                  · simp [allowed, later]
              · simp [file]

/-- A path which starts with a slash is walked, if the root may be entered. -/
theorem findParentCheckperm_eq
    {root : Nat}
    {vfs : Vfs ω}
    (str : CString)
    (directory : (vfs.fsnodes root).type = .directory) :
    findParentCheckperm mounts root (slash :: str) p vfs =
      if canExec (vfs.fsnodes root) p = false then some (none, vfs)
      else followChecked mounts p (doubleSlash str)
        (components str).dropLast root vfs := by
  have trimmed : Trimmed (str.drop 0) (firstOfTrailing str - 0) :=
    firstOfTrailing_trimmed str
  have bound := (firstOfTrailing_trimmed str).le
  rw [findParentCheckperm, if_neg (not_not.mpr rfl)]
  simp only
  by_cases exec : canExec (vfs.fsnodes root) p = true
  · rw [walkPath_eq (by omega) directory exec trimmed]
    simp [exec]
  · simp [exec]

/-- No other path is walked. -/
theorem findParentCheckperm_relative
    {root : Nat}
    {path : CString}
    {vfs : Vfs ω}
    (relative : path.head? ≠ some slash) :
    findParentCheckperm mounts root path p vfs = some (none, vfs) := by
  cases path with
  | nil => rfl
  | cons first str =>
      rw [findParentCheckperm, if_pos]
      simpa using relative

theorem components_slash (str : CString) :
    components (slash :: str) = components str := by
  rw [components, componentsFrom, if_pos rfl, components]

/-! ## `find_parent` -/

theorem follow_append
    (firsts rest : List Component)
    (node : Nat)
    (vfs : Vfs ω) :
    follow mounts (firsts ++ rest) node vfs =
      (follow mounts firsts node vfs).bind fun
        | (none, vfs) => some (none, vfs)
        | (some node, vfs) => follow mounts rest node vfs := by
  induction firsts generalizing node vfs with
  | nil => rfl
  | cons component firsts induction =>
      rw [List.cons_append, follow, follow, Option.bind_assoc]
      congr 1
      funext looked
      rcases looked with ⟨child, after⟩
      cases child with
      | none => rfl
      | some child =>
          by_cases file : (after.fsnodes child).type = .directory
          · simp [file, induction]
          · simp [file]

/-- One lookup, which stops the walk or is followed by the others. -/
theorem follow_cons_inv
    {component : Component}
    {rest : List Component}
    {node : Nat}
    {vfs : Vfs ω}
    {result : NodeResult ω}
    (followed : follow mounts (component :: rest) node vfs = some result) :
    ∃ looked middle,
      getNodeWithLen mounts node component.name component.len vfs =
        some (looked, middle) ∧
      (((∀ child ∈ looked, (middle.fsnodes child).type ≠ .directory) ∧
          result = (none, middle)) ∨
        ∃ child, looked = some child ∧
          (middle.fsnodes child).type = .directory ∧
          follow mounts rest child middle = some result) := by
  rcases Option.bind_eq_some_iff.mp followed with
    ⟨⟨looked, middle⟩, found, continued⟩
  refine ⟨looked, middle, found, ?_⟩
  cases looked with
  | none =>
      cases continued
      exact .inl ⟨by simp, rfl⟩
  | some child =>
      simp only at continued
      split at continued
      · rename_i file
        cases continued
        exact .inl ⟨by simpa using file, rfl⟩
      · rename_i directory
        exact .inr ⟨child, rfl, not_not.mp directory, continued⟩

/-- A walk which fails has stopped at a name that leads to no directory. -/
theorem follow_eq_none
    {names : List Component}
    {node : Nat}
    {vfs after : Vfs ω}
    (followed : follow mounts names node vfs = some (none, after)) :
    ∃ before component rest dir middle looked,
      names = before ++ component :: rest ∧
      follow mounts before node vfs = some (some dir, middle) ∧
      getNodeWithLen mounts dir component.name component.len middle =
        some (looked, after) ∧
      ∀ child ∈ looked, (after.fsnodes child).type ≠ .directory := by
  induction names generalizing node vfs with
  | nil => cases followed
  | cons component names induction =>
      rcases follow_cons_inv followed with
        ⟨looked, middle, found, ⟨stops, same⟩ |
          ⟨child, rfl, directory, onwards⟩⟩
      · cases same
        exact ⟨[], component, names, node, vfs, looked, rfl, rfl, found,
          stops⟩
      · rcases induction onwards with
          ⟨before, last, rest, dir, next, looked, split, walked, failed⟩
        refine ⟨component :: before, last, rest, dir, next, looked, ?_, ?_,
          failed⟩
        · rw [split, List.cons_append]
        · rw [follow, found, Option.bind_some]
          simpa [directory] using walked

/-- The walk stops at the first such name. -/
theorem follow_stops
    {before rest : List Component}
    {component : Component}
    {node dir : Nat}
    {vfs middle after : Vfs ω}
    {looked : Option Nat}
    (walked : follow mounts before node vfs = some (some dir, middle))
    (found : getNodeWithLen mounts dir component.name component.len middle =
      some (looked, after))
    (stops : ∀ child ∈ looked, (after.fsnodes child).type ≠ .directory) :
    follow mounts (before ++ component :: rest) node vfs =
      some (none, after) := by
  rw [follow_append, walked, Option.bind_some]
  simp only [follow, found, Option.bind_some]
  cases looked with
  | none => rfl
  | some child => exact if_pos (stops child rfl)

theorem findParent_absolute
    {root : Nat}
    {vfs : Vfs ω}
    (directory : (vfs.fsnodes root).type = .directory)
    {path : CString}
    (absolute : path.head? = some slash) :
    findParent mounts root path vfs =
      follow mounts (components path).dropLast root vfs := by
  cases path with
  | nil => cases absolute
  | cons first str =>
      cases absolute
      rw [findParent, findParentCheckperm_eq str directory, canExec_kernel,
        if_neg (by simp), followChecked_kernel, components_slash]

/--
`find_parent` looks up all components of an absolute path but the last, in
order, and comes back whenever the lookups do.  It returns `NULL` just when
the path is not absolute or one of the lookups leads to no directory; this
lookup is the last one it makes.
-/
theorem findParent_eq_follow
    {root : Nat}
    {vfs : Vfs ω}
    (directory : (vfs.fsnodes root).type = .directory)
    (path : CString) :
    (findParent mounts root path vfs =
      if path.head? = some slash then
        follow mounts (components path).dropLast root vfs
      else some (none, vfs)) ∧
    ∀ found after, findParent mounts root path vfs = some (found, after) →
      (found = none ↔ path.head? ≠ some slash ∨
        ∃ before component rest dir middle looked,
          (components path).dropLast = before ++ component :: rest ∧
          follow mounts before root vfs = some (some dir, middle) ∧
          getNodeWithLen mounts dir component.name component.len middle =
            some (looked, after) ∧
          ∀ child ∈ looked, (after.fsnodes child).type ≠ .directory) := by
  by_cases absolute : path.head? = some slash
  · have walks : findParent mounts root path vfs = _ :=
      findParent_absolute directory absolute
    refine ⟨by rw [walks, if_pos absolute], ?_⟩
    intro found after returned
    rw [walks] at returned
    constructor
    · rintro rfl
      exact .inr (follow_eq_none returned)
    · rintro (relative | ⟨before, component, rest, dir, middle, looked, split,
        walked, failed, stops⟩)
      · exact (relative absolute).elim
      · rw [split, follow_stops walked failed stops] at returned
        cases returned
        rfl
  · have refused : findParent mounts root path vfs = some (none, vfs) :=
      findParentCheckperm_relative absolute
    refine ⟨by rw [refused, if_neg absolute], ?_⟩
    intro found after returned
    rw [refused] at returned
    cases returned
    exact ⟨fun _ => .inl absolute, fun _ => rfl⟩

theorem findParent_eq_follow_boot :
    findParent testMounts 0 (TestFs.text "//testdir1///child1/") bootVfs =
        follow testMounts [⟨TestFs.text "testdir1///child1/", 8⟩] 0 bootVfs ∧
      (findParent testMounts 0 (TestFs.text "//testdir1///child1/")
        bootVfs).map Prod.fst = some (some 1) := by
  constructor
  · have directory : (bootVfs.fsnodes 0).type = .directory := by
      decide +kernel
    have equal : findParent testMounts 0 (TestFs.text "//testdir1///child1/")
        bootVfs = _ := (findParent_eq_follow directory _).1
    rwa [if_pos (by decide)] at equal
  · decide +kernel

end ForsKernel.Fs
