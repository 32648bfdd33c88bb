import ForsKernel.Fs.FindParent
import ForsKernel.Fs.OpenFiles

/-!
# The last name of a path

`find_parent` stops before the last component of a path, and `basename` with
the length taken by `get_node` is what is looked up in the parent.  The two
agree on where the name starts.  They do not agree on where it ends: `basename`
keeps the trailing slashes, and `get_node` cuts at `FILENAME_SIZE`.
-/

namespace ForsKernel.Fs

variable
  {ω : Type*}
  {mounts : Nat → FsOps ω}
  {p : Int}

/-! ## The name which is looked up -/

/-- The bytes of a component. -/
def Component.text (component : Component) : CString :=
  component.name.take component.len

/-- The component sequence of a path. -/
def names (path : CString) : List CString :=
  (components path).map Component.text

/-- What `get_node` looks up: the name with the length it takes for it. -/
def lookedUp (name : CString) : CString :=
  name.take (strnlen name filenameSize)

/-- The name looked up in the parent is the last component of the path. -/
def LooksUpLast (path : CString) : Prop :=
  ∃ name last, basename path = some name ∧
    (components path).getLast? = some last ∧ lookedUp name = last.text

/--
The last component has the length `FILENAME_SIZE`, or it is shorter and no
slash follows it.
-/
def EndsExactly (path : CString) : Prop :=
  ∀ last ∈ (components path).getLast?, last.len = filenameSize ∨
    last.len < filenameSize ∧ path.getLast? ≠ some slash

/-- An absolute path with a component has a last slash before its last name. -/
theorem exists_last_slash
    {path : CString}
    (absolute : path.head? = some slash)
    (named : components path ≠ []) :
    ∃ d, memrchr slash path (firstOfTrailing path) = some d := by
  have trimmed := firstOfTrailing_trimmed path
  have positive : 0 < firstOfTrailing path := by
    by_contra none
    apply named
    apply componentsFrom_slashes
    intro b member
    rcases List.mem_iff_getElem?.mp member with ⟨k, there⟩
    exact trimmed.after k b (by omega) there
  have first : path[0]? = some slash := by
    rwa [List.head?_eq_getElem?] at absolute
  rcases memrchr_isSome positive first with ⟨d, isLast, _⟩
  exact ⟨d, isLast⟩

/-- The string is its trimmed part exactly if it does not end in a slash. -/
theorem Trimmed.eq_length_iff
    {s : CString}
    {n : Nat}
    (trimmed : Trimmed s n)
    (positive : 0 < n) :
    n = s.length ↔ s.getLast? ≠ some slash := by
  have le := trimmed.le
  rw [List.getLast?_eq_getElem?]
  constructor
  · intro whole
    rw [← whole]
    exact trimmed.before positive
  · intro different
    by_contra shorter
    have inside : s.length - 1 < s.length := by omega
    have here := List.getElem?_eq_getElem inside
    apply different
    rw [here, trimmed.after _ _ (by omega) here]

/-- Where the last name starts, and how long it is. -/
theorem basename_eq
    {path : CString}
    (absolute : path.head? = some slash)
    (named : components path ≠ []) :
    ∃ name last, basename path = some name ∧
      (components path).getLast? = some last ∧ last.name = name ∧
      0 < last.len ∧ last.len ≤ name.length ∧
      (last.len = name.length ↔ path.getLast? ≠ some slash) := by
  rcases exists_last_slash absolute named with ⟨d, isLast⟩
  have trimmed := firstOfTrailing_trimmed path
  have le := trimmed.le
  rcases components_last trimmed isLast with ⟨lt, firsts, whole⟩
  refine ⟨path.drop (d + 1),
    ⟨path.drop (d + 1), firstOfTrailing path - (d + 1)⟩, ?_, ?_, rfl, ?_, ?_,
    ?_⟩
  · rw [basename, isLast, Option.map_some]
  · rw [whole, List.getLast?_concat]
  · simp only
    omega
  · simp only [List.length_drop]
    omega
  · rw [← trimmed.eq_length_iff (by omega)]
    simp only [List.length_drop]
    omega

/-- The two ends agree just when the length is right. -/
theorem looksUpLast_iff
    {path : CString}
    (absolute : path.head? = some slash)
    (named : components path ≠ []) :
    LooksUpLast path ↔ EndsExactly path := by
  rcases basename_eq absolute named with
    ⟨name, last, isName, isLast, same, positive, le, ends⟩
  have lengths : lookedUp name = last.text ↔
      min name.length filenameSize = last.len := by
    rw [lookedUp, Component.text, strnlen_eq, same]
    constructor
    · intro equal
      have counted := congrArg List.length equal
      rw [List.length_take, List.length_take] at counted
      omega
    · intro equal
      rw [equal]
  have reached : LooksUpLast path ↔ lookedUp name = last.text := by
    constructor
    · rintro ⟨name', last', isName', isLast', equal⟩
      rw [isName] at isName'
      rw [isLast] at isLast'
      cases isName'
      cases isLast'
      exact equal
    · exact fun equal => ⟨name, last, isName, isLast, equal⟩
  have exact : EndsExactly path ↔ last.len = filenameSize ∨
      last.len < filenameSize ∧ path.getLast? ≠ some slash := by
    simp [EndsExactly, isLast]
  rw [reached, lengths, exact, ← ends]
  omega

/-! ## Lookups read a name up to its length -/

theorem memcmp_congr
    {s s' t t' : CString}
    {n : Nat}
    (left : s.take n = s'.take n)
    (right : t.take n = t'.take n) :
    memcmp s t n = memcmp s' t' n := by
  induction n generalizing s s' t t' with
  | zero => rfl
  | succ n induction =>
      have both {u u' : CString} (same : u.take (n + 1) = u'.take (n + 1)) :
          u.headD 0 = u'.headD 0 ∧ u.tail.take n = u'.tail.take n := by
        cases u <;> cases u' <;> simp_all
      rcases both left with ⟨head, tail⟩
      rcases both right with ⟨head', tail'⟩
      simp only [memcmp, head, head', induction tail tail']

theorem strnlen_congr
    {s s' : CString}
    {n : Nat}
    (same : s.take n = s'.take n) :
    strnlen s n = strnlen s' n := by
  have counted := congrArg List.length same
  rw [List.length_take, List.length_take] at counted
  rw [strnlen_eq, strnlen_eq]
  omega

theorem strncmp_congr
    {s s' t t' : CString}
    {n : Nat}
    (left : s.take n = s'.take n)
    (right : t.take n = t'.take n) :
    strncmp s t n = strncmp s' t' n := by
  have short : min (strnlen s' n) (strnlen t' n) ≤ n := by
    rw [strnlen_eq s']
    omega
  have cut {u u' : CString} (same : u.take n = u'.take n) :
      u.take (min (strnlen s' n) (strnlen t' n)) =
        u'.take (min (strnlen s' n) (strnlen t' n)) := by
    have shorter := congrArg
      (List.take (min (strnlen s' n) (strnlen t' n))) same
    rwa [List.take_take, List.take_take, min_eq_left short] at shorter
  rw [strncmp, strncmp, strnlen_congr left, strnlen_congr right]
  exact memcmp_congr (cut left) (cut right)

/-- The file system reads no more of a name than the length it is given. -/
def ReadsLength (fs : FsOps ω) : Prop :=
  ∀ parent name name' len fsState, name.take len = name'.take len →
    fs.retrieveChild parent name len fsState =
      fs.retrieveChild parent name' len fsState

/-- The state without its record of calls, in which whole names stand. -/
def Vfs.unlogged (vfs : Vfs ω) : Vfs ω :=
  { vfs with calls := [] }

/-- A result without the record of calls. -/
def unlogged
    {α : Type*}
    (result : α × Vfs ω) :
    α × Vfs ω :=
  (result.1, result.2.unlogged)

theorem Vfs.exists_calls
    {vfs vfs' : Vfs ω}
    (same : vfs.unlogged = vfs'.unlogged) :
    ∃ calls, vfs' = { vfs with calls := calls } := by
  cases vfs
  cases vfs'
  rw [Vfs.unlogged, Vfs.unlogged] at same
  cases same
  exact ⟨_, rfl⟩

/-- What follows cannot tell the two results apart. -/
theorem unlogged_bind
    {α β : Type*}
    {x y : Option (α × Vfs ω)}
    {f g : α × Vfs ω → Option (β × Vfs ω)}
    (same : x.map unlogged = y.map unlogged)
    (rest : ∀ a vfs vfs', vfs.unlogged = vfs'.unlogged →
      (f (a, vfs)).map unlogged = (g (a, vfs')).map unlogged) :
    (x.bind f).map unlogged = (y.bind g).map unlogged := by
  cases x with
  | none =>
      cases y with
      | none => rfl
      | some second => cases same
  | some first =>
      cases y with
      | none => cases same
      | some second =>
          rcases first with ⟨a, vfs⟩
          rcases second with ⟨b, vfs'⟩
          have pair := Option.some.inj same
          cases congrArg Prod.fst pair
          exact rest a vfs vfs' (congrArg Prod.snd pair)

theorem getNodeWithLen_unlogged
    (reads : ∀ mount, ReadsLength (mounts mount))
    {name name' : CString}
    {len : Nat}
    (same : name.take len = name'.take len)
    (parent : Nat)
    {vfs vfs' : Vfs ω}
    (equal : vfs.unlogged = vfs'.unlogged) :
    (getNodeWithLen mounts parent name len vfs).map unlogged =
      (getNodeWithLen mounts parent name' len vfs').map unlogged := by
  rcases Vfs.exists_calls equal with ⟨calls, rfl⟩
  have links : findLink { vfs with calls := calls } parent name' len =
      findLink vfs parent name len := by
    have compared (link : CString) : strncmp link name' len =
        strncmp link name len := strncmp_congr rfl same.symm
    simp only [findLink, compared]
  have free : findFreeNode { vfs with calls := calls } =
      findFreeNode vfs := rfl
  rw [getNodeWithLen, getNodeWithLen, links]
  cases findLink vfs parent name len with
  | none => rfl
  | some link =>
      cases link with
      | some link => rfl
      | none =>
          simp only [Option.bind_some, free]
          cases findFreeNode vfs with
          | none => rfl
          | some newNode =>
              rw [Option.map_bind, Option.map_bind]
              apply Option.bind_congr
              intro mount _
              have child (node : FsNode) (fsState : ω) :=
                reads mount node name name' len fsState same
              simp only [Function.comp_apply, child]
              rw [Option.map_bind, Option.map_bind]
              apply Option.bind_congr
              intro mount' _
              rfl

/-! ## The walk -/

/-- All that a lookup reads of a component. -/
def Component.key (component : Component) : Nat × CString :=
  (component.len, component.text)

theorem componentsFrom_len_le
    (fresh : Bool)
    (s : CString) :
    ∀ component ∈ componentsFrom fresh s,
      component.len ≤ component.name.length := by
  induction s generalizing fresh with
  | nil => simp [componentsFrom]
  | cons b s induction =>
      rw [componentsFrom]
      split_ifs
      · exact induction true
      · intro component member
        rcases List.mem_cons.mp member with rfl | later
        · exact (List.takeWhile_prefix _).length_le
        · exact induction false component later
      · exact induction false

/-- The component sequence says all that lookups read of a path. -/
theorem map_key_eq
    {path path' : CString}
    (same : names path = names path') :
    (components path).map Component.key =
      (components path').map Component.key := by
  have keys (s : CString) : (components s).map Component.key =
      (names s).map fun text => (text.length, text) := by
    rw [names, List.map_map]
    apply List.map_congr_left
    intro component member
    have le := componentsFrom_len_le true s component member
    simp [Component.key, Component.text, le]
  rw [keys, keys, same]

theorem followChecked_unlogged
    (reads : ∀ mount, ReadsLength (mounts mount))
    (strict : Bool)
    {comps comps' : List Component}
    (same : comps.map Component.key = comps'.map Component.key)
    (node : Nat)
    {vfs vfs' : Vfs ω}
    (equal : vfs.unlogged = vfs'.unlogged) :
    (followChecked mounts p strict comps node vfs).map unlogged =
      (followChecked mounts p strict comps' node vfs').map unlogged := by
  induction comps generalizing comps' node vfs vfs' with
  | nil =>
      cases List.map_eq_nil_iff.mp same.symm
      simp [followChecked, unlogged, equal]
  | cons component comps induction =>
      cases comps' with
      | nil => cases same
      | cons component' comps' =>
          rw [List.map_cons, List.map_cons, List.cons.injEq] at same
          rcases same with ⟨first, rest⟩
          have len : component.len = component'.len :=
            congrArg Prod.fst first
          have text : component.text = component'.text :=
            congrArg Prod.snd first
          have ends : comps = [] ↔ comps' = [] := by
            rw [← List.map_eq_nil_iff, rest, List.map_eq_nil_iff]
          rw [Component.text, Component.text, ← len] at text
          rw [followChecked, followChecked, ← len]
          apply unlogged_bind (getNodeWithLen_unlogged reads text node equal)
          intro child after after' equal'
          rcases Vfs.exists_calls equal' with ⟨calls, rfl⟩
          cases child with
          | none => rfl
          | some child =>
              simp only [ne_eq, ends]
              split_ifs
              · rfl
              · exact induction rest child equal'
              · rfl

/--
Where the last directory must be entered, it does not matter whether the walk
has checked that already.
-/
theorem followChecked_strict
    {α : Type*}
    (strict : Bool)
    (comps : List Component)
    (node : Nat)
    (vfs : Vfs ω)
    (failure : α)
    (act : Nat → Vfs ω → Option (α × Vfs ω)) :
    ((followChecked mounts p strict comps node vfs).bind fun
      | (none, vfs) => some (failure, vfs)
      | (some parent, vfs) =>
          if !canExec (vfs.fsnodes parent) p then some (failure, vfs)
          else act parent vfs) =
      (followChecked mounts p true comps node vfs).bind fun
        | (none, vfs) => some (failure, vfs)
        | (some parent, vfs) =>
            if !canExec (vfs.fsnodes parent) p then some (failure, vfs)
            else act parent vfs := by
  induction comps generalizing node vfs with
  | nil => rfl
  | cons component comps induction =>
      rw [followChecked, followChecked, Option.bind_assoc, Option.bind_assoc]
      congr 1
      funext looked
      rcases looked with ⟨child, after⟩
      cases child with
      | none => rfl
      | some child =>
          by_cases last : comps = []
          · subst last
            by_cases file : (after.fsnodes child).type = .directory
            · by_cases allowed : canExec (after.fsnodes child) p = true
              · simp [allowed, followChecked]
              · cases strict <;> simp [file, allowed, followChecked]
            · simp [file]
          · simp only [ne_eq, last, not_false_eq_true, true_or, true_and]
            split_ifs
            · rfl
            · exact induction child after
            · rfl

theorem openNode_unlogged
    (mode node : Nat)
    {vfs vfs' : Vfs ω}
    (equal : vfs.unlogged = vfs'.unlogged) :
    (openNode mounts p mode node vfs).map unlogged =
      (openNode mounts p mode node vfs').map unlogged := by
  rcases Vfs.exists_calls equal with ⟨calls, rfl⟩
  rw [openNode, openNode]
  simp only
  split_ifs
  · rfl
  · rfl
  · rw [Option.map_bind, Option.map_bind]
    apply Option.bind_congr
    intro mount _
    simp only [Function.comp_apply]
    split_ifs
    · rfl
    · split
      · rename_i full
        split
        · rfl
        · rename_i fd free
          cases full.symm.trans free
      · rename_i fd free
        split
        · rename_i full
          cases full.symm.trans free
        · rename_i fd' free'
          cases free.symm.trans free'
          rfl

/-! ## Paths with the same components -/

/-- With exact last names, the same name is looked up in the parent. -/
theorem lookedUp_eq
    {path path' : CString}
    (exact : LooksUpLast path)
    (exact' : LooksUpLast path')
    (same : names path = names path') :
    ∃ name name', basename path = some name ∧ basename path' = some name' ∧
      strnlen name filenameSize = strnlen name' filenameSize ∧
      name.take (strnlen name filenameSize) =
        name'.take (strnlen name filenameSize) := by
  rcases exact with ⟨name, last, isName, isLast, equal⟩
  rcases exact' with ⟨name', last', isName', isLast', equal'⟩
  have texts : last.text = last'.text := by
    have ends := congrArg List.getLast? same
    rw [names, names, List.getLast?_map, List.getLast?_map, isLast,
      isLast'] at ends
    exact Option.some.inj ends
  rw [← equal, ← equal', lookedUp, lookedUp] at texts
  have lengths : strnlen name filenameSize = strnlen name' filenameSize := by
    have counted := congrArg List.length texts
    rw [List.length_take, List.length_take, strnlen_eq, strnlen_eq] at counted
    rw [strnlen_eq, strnlen_eq]
    omega
  exact ⟨name, name', isName, isName', lengths, by rwa [← lengths] at texts⟩

theorem dropLast_key_eq
    {path path' : CString}
    (same : names path = names path') :
    (components path).dropLast.map Component.key =
      (components path').dropLast.map Component.key := by
  rw [List.map_dropLast, List.map_dropLast, map_key_eq same]

/-- `find_node` cannot tell the two paths apart. -/
theorem findNode_unlogged
    (reads : ∀ mount, ReadsLength (mounts mount))
    {path path' : CString}
    (absolute : path.head? = some slash)
    (absolute' : path'.head? = some slash)
    (exact : LooksUpLast path)
    (exact' : LooksUpLast path')
    (same : names path = names path')
    {root : Nat}
    {vfs : Vfs ω}
    (directory : (vfs.fsnodes root).type = .directory) :
    (findNode mounts root path vfs).map unlogged =
      (findNode mounts root path' vfs).map unlogged := by
  rcases lookedUp_eq exact exact' same with
    ⟨name, name', isName, isName', lengths, texts⟩
  rw [findNode, findNode, findParent_absolute directory absolute,
    findParent_absolute directory absolute', ← followChecked_kernel true,
    ← followChecked_kernel true]
  apply unlogged_bind
    (followChecked_unlogged reads true (dropLast_key_eq same) root rfl)
  intro parent after after' equal
  cases parent with
  | none => simp [unlogged, equal]
  | some parent =>
      simp only [isName, isName', Option.bind_some, getNode, ← lengths]
      exact getNodeWithLen_unlogged reads texts parent equal

/-- The part of `vfs_open` behind the check of the parent. -/
def openIn
    (mounts : Nat → FsOps ω)
    (p : Int)
    (path : CString)
    (mode : Nat)
    (parent : Nat)
    (vfs : Vfs ω) :
    Option (Int × Vfs ω) :=
  (basename path).bind fun name =>
    (getNode mounts parent name vfs).bind fun
      | (none, _) => none
      | (some node, vfs) => openNode mounts p mode node vfs

/-- `vfs_open` enters all directories of an absolute path, the last as well. -/
theorem vfsOpen_eq
    {path : CString}
    (absolute : path.head? = some slash)
    (mode : Nat)
    {vfs : Vfs ω}
    (directory : (vfs.fsnodes vfs.vfsRoot).type = .directory) :
    vfsOpen mounts p path mode vfs =
      if canExec (vfs.fsnodes vfs.vfsRoot) p = false then some (-1, vfs)
      else
        (followChecked mounts p true (components path).dropLast vfs.vfsRoot
          vfs).bind fun
            | (none, vfs) => some (-1, vfs)
            | (some parent, vfs) =>
                if !canExec (vfs.fsnodes parent) p then some (-1, vfs)
                else openIn mounts p path mode parent vfs := by
  cases path with
  | nil => cases absolute
  | cons first str =>
      cases absolute
      rw [vfsOpen, findParentCheckperm_eq str directory, components_slash]
      split
      · rfl
      · exact followChecked_strict _ _ _ _ _ (openIn mounts p _ mode)

/-- Neither can `vfs_open`. -/
theorem vfsOpen_unlogged
    (reads : ∀ mount, ReadsLength (mounts mount))
    {path path' : CString}
    (absolute : path.head? = some slash)
    (absolute' : path'.head? = some slash)
    (exact : LooksUpLast path)
    (exact' : LooksUpLast path')
    (same : names path = names path')
    (mode : Nat)
    {vfs : Vfs ω}
    (directory : (vfs.fsnodes vfs.vfsRoot).type = .directory) :
    (vfsOpen mounts p path mode vfs).map unlogged =
      (vfsOpen mounts p path' mode vfs).map unlogged := by
  rcases lookedUp_eq exact exact' same with
    ⟨name, name', isName, isName', lengths, texts⟩
  rw [vfsOpen_eq absolute mode directory, vfsOpen_eq absolute' mode directory]
  split
  · rfl
  · apply unlogged_bind
      (followChecked_unlogged reads true (dropLast_key_eq same) _ rfl)
    intro parent after after' equal
    cases parent with
    | none => simp [unlogged, equal]
    | some parent =>
        have exec : canExec (after'.fsnodes parent) p =
            canExec (after.fsnodes parent) p := by
          rcases Vfs.exists_calls equal with ⟨calls, rfl⟩
          rfl
        simp only [exec]
        split
        · simp [unlogged, equal]
        · simp only [openIn, isName, isName', Option.bind_some, getNode,
            ← lengths]
          apply unlogged_bind
            (getNodeWithLen_unlogged reads texts parent equal)
          intro node checked checked' equal'
          cases node with
          | none => rfl
          | some node => exact openNode_unlogged mode node equal'

theorem LooksUpLast.map_lookedUp
    {path : CString}
    (exact : LooksUpLast path) :
    (basename path).map lookedUp = (names path).getLast? := by
  rcases exact with ⟨name, last, isName, isLast, equal⟩
  rw [isName, names, List.getLast?_map, isLast, Option.map_some,
    Option.map_some, equal]

/-- The name completes the sequence just when it is the last component. -/
theorem looksUpLast_iff_names
    {path name : CString}
    (named : components path ≠ [])
    (isName : basename path = some name) :
    names path = (components path).dropLast.map Component.text ++
        [lookedUp name] ↔ LooksUpLast path := by
  have isLast := List.getLast?_eq_some_getLast named
  have whole : names path = (components path).dropLast.map Component.text ++
      [((components path).getLast named).text] := by
    rw [← List.map_singleton, ← List.map_append,
      List.dropLast_append_getLast, names]
  rw [whole, List.append_cancel_left_eq, List.singleton_inj]
  constructor
  · intro equal
    exact ⟨name, _, isName, isLast, equal.symm⟩
  · rintro ⟨name', last, isName', isLast', equal⟩
    rw [isName] at isName'
    rw [isLast] at isLast'
    cases isName'
    cases isLast'
    exact equal.symm

/--
The name which is looked up in the parent is the last component of an absolute
path, and completes the component sequence, just when the path ends exactly.
Between two such paths, different last components are looked up under
different names, and the same component sequence resolves identically.
-/
theorem last_name_exact_iff
    {path path' : CString}
    (absolute : path.head? = some slash)
    (named : components path ≠ [])
    (absolute' : path'.head? = some slash)
    (named' : components path' ≠ []) :
    (LooksUpLast path ↔ EndsExactly path) ∧
    (∀ name, basename path = some name →
      (names path = (components path).dropLast.map Component.text ++
          [lookedUp name] ↔ EndsExactly path)) ∧
    (EndsExactly path → EndsExactly path' →
      ((names path).getLast? ≠ (names path').getLast? →
        (basename path).map lookedUp ≠ (basename path').map lookedUp) ∧
      (names path = names path' → ∀ mounts : Nat → FsOps ω,
        (∀ mount, ReadsLength (mounts mount)) → ∀ vfs : Vfs ω,
          (∀ root, (vfs.fsnodes root).type = .directory →
            (findNode mounts root path vfs).map unlogged =
              (findNode mounts root path' vfs).map unlogged) ∧
          ((vfs.fsnodes vfs.vfsRoot).type = .directory → ∀ p mode,
            (vfsOpen mounts p path mode vfs).map unlogged =
              (vfsOpen mounts p path' mode vfs).map unlogged))) := by
  have iff := looksUpLast_iff absolute named
  have iff' := looksUpLast_iff absolute' named'
  refine ⟨iff, ?_, ?_⟩
  · intro name isName
    rw [looksUpLast_iff_names named isName, iff]
  · intro ends ends'
    refine ⟨?_, ?_⟩
    · rw [(iff.mpr ends).map_lookedUp, (iff'.mpr ends').map_lookedUp]
      exact id
    · intro same mounts reads vfs
      exact ⟨fun root directory => findNode_unlogged reads absolute absolute'
          (iff.mpr ends) (iff'.mpr ends') same directory,
        fun directory p mode => vfsOpen_unlogged reads absolute absolute'
          (iff.mpr ends) (iff'.mpr ends') same mode directory⟩

theorem testfs_readsLength : ReadsLength TestFs.testfsType := by
  intro parent name name' len fsState same
  have compared (node : CString) : strncmp name node len =
      strncmp name' node len := strncmp_congr same rfl
  simp only [TestFs.testfsType, TestFs.retrieveChild, TestFs.findName,
    compared]

theorem last_name_exact_iff_child :
    (vfsOpen testMounts 0 (TestFs.text "//testdir1//child1") ofRead
        bootVfs).map unlogged =
      (vfsOpen testMounts 0 (TestFs.text "/testdir1/child1") ofRead
        bootVfs).map unlogged := by
  have ends : EndsExactly (TestFs.text "//testdir1//child1") := by
    simp only [EndsExactly]
    decide
  have ends' : EndsExactly (TestFs.text "/testdir1/child1") := by
    simp only [EndsExactly]
    decide
  have root : (bootVfs.fsnodes bootVfs.vfsRoot).type = .directory := by
    decide +kernel
  exact ((last_name_exact_iff (by decide) (by decide) (by decide)
    (by decide)).2.2 ends ends').2 (by decide) testMounts
      (fun _ => testfs_readsLength) bootVfs |>.2 root 0 ofRead

/-- The slash behind a directory is looked up as a part of its name. -/
theorem last_name_with_slash :
    ¬ ∀ path : CString, path.head? = some slash → components path ≠ [] →
      LooksUpLast path := by
  intro always
  have exact := always (TestFs.text "/testdir1/") (by decide) (by decide)
  have ends := (looksUpLast_iff (by decide) (by decide)).mp exact
  exact absurd (ends _ rfl) (by decide)

end ForsKernel.Fs
