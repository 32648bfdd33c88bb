import ForsKernel.Fs.Vfs

/-!
# The path walk

`find_parent_checkperm` finds its way through the string with pointers to
slashes.  `Walk` is the same way told by the components of the path: every
directory is entered with execute permission, and every node looked up on the
way is a directory.  `Stuck` is a way which ends too early.
-/

namespace ForsKernel.Fs

variable
  {ω : Type*}
  {mounts : Nat → FsOps ω}
  {p : Int}

/-! ## The ways through a lookup -/

namespace Vfs

/-- What `retrieve_child` leaves behind. -/
def retrieved
    (vfs : Vfs ω)
    (fs : FsOps ω)
    (parent : Nat)
    (name : CString)
    (len : Nat) :
    Vfs ω :=
  vfs.nodeReplied parent
    (fs.retrieveChild (vfs.fsnodes parent) name len vfs.fsState)
    (.retrieveChild parent name len
      (fs.retrieveChild (vfs.fsnodes parent) name len vfs.fsState).ret)

/-- What `node_from_id` leaves behind. -/
def filledIn
    (vfs : Vfs ω)
    (fs : FsOps ω)
    (id : Int)
    (node : Nat) :
    Vfs ω :=
  vfs.nodeReplied node (fs.nodeFromId id (vfs.fsnodes node) vfs.fsState)
    (.nodeFromId id node
      (fs.nodeFromId id (vfs.fsnodes node) vfs.fsState).ret)

/-- The free node, mounted where its parent is. -/
def claimed
    (vfs : Vfs ω)
    (node parent : Nat) :
    Vfs ω :=
  vfs.setNode node
    { vfs.fsnodes node with mountpoint := (vfs.fsnodes parent).mountpoint }

end Vfs

/-- The file system is asked for a child, which goes to a free node. -/
inductive Fetched
    (mounts : Nat → FsOps ω)
    (parent : Nat)
    (name : CString)
    (len : Nat)
    (vfs : Vfs ω)
    (newNode : Nat) :
    NodeResult ω → Prop where
  | intro {mount mount' : Nat} {id ret : Int}
      (first : ((vfs.claimed newNode parent).fsnodes parent).mountpoint =
        some mount)
      (isId : ((mounts mount).retrieveChild
        ((vfs.claimed newNode parent).fsnodes parent) name len
        vfs.fsState).ret = id)
      (second : (((vfs.claimed newNode parent).retrieved (mounts mount)
        parent name len).fsnodes parent).mountpoint = some mount')
      (isRet : ((mounts mount').nodeFromId id
        (((vfs.claimed newNode parent).retrieved (mounts mount) parent name
          len).fsnodes newNode)
        ((vfs.claimed newNode parent).retrieved (mounts mount) parent name
          len).fsState).ret = ret) :
      Fetched mounts parent name len vfs newNode
        (if ret < 0 then none else some newNode,
          ((vfs.claimed newNode parent).retrieved (mounts mount) parent name
            len).filledIn (mounts mount') id newNode)

/-- The file system does not write to the directory in which it searches. -/
def KeepsParents (fs : FsOps ω) : Prop :=
  ∀ parent name len fsState,
    (fs.retrieveChild parent name len fsState).node = parent

/--
If the file system does not, then nothing is written but the free node, even
if that one is the parent.
-/
theorem Fetched.kept
    (keeps : ∀ mount, KeepsParents (mounts mount))
    {parent newNode : Nat}
    {name : CString}
    {len : Nat}
    {vfs after : Vfs ω}
    {found : Option Nat}
    (fetched : Fetched mounts parent name len vfs newNode (found, after)) :
    ∃ mount fsState reply, (vfs.fsnodes parent).mountpoint = some mount ∧
      (mounts mount).nodeFromId
        ((mounts mount).retrieveChild (vfs.fsnodes parent) name len
          vfs.fsState).ret
        { vfs.fsnodes newNode with mountpoint := some mount } fsState =
          reply ∧
      (found = if reply.ret < 0 then none else some newNode) ∧
      after.fsnodes = Function.update vfs.fsnodes newNode reply.node ∧
      after.vfsRoot = vfs.vfsRoot ∧ after.openFiles = vfs.openFiles ∧
      after.fslinks = vfs.fslinks := by
  have same : (vfs.claimed newNode parent).fsnodes parent =
      vfs.fsnodes parent := by
    by_cases here : parent = newNode
    · subst here
      exact Function.update_self ..
    · exact Function.update_of_ne here ..
  generalize resultEq : (found, after) = result at fetched
  cases fetched with
  | @intro mount mount' id ret first isId second isRet =>
      have middle : ((vfs.claimed newNode parent).retrieved
          (mounts mount) parent name len).fsnodes =
          (vfs.claimed newNode parent).fsnodes := by
        rw [Vfs.retrieved, Vfs.nodeReplied, keeps mount]
        exact Function.update_eq_self ..
      rw [middle, first] at second
      cases second
      rw [same] at first isId
      have contents : (vfs.claimed newNode parent).fsnodes newNode =
          { vfs.fsnodes newNode with mountpoint := some mount } := by
        rw [← first]
        exact Function.update_self ..
      rw [middle, contents] at isRet
      cases resultEq
      refine ⟨mount, ((vfs.claimed newNode parent).retrieved (mounts mount)
        parent name len).fsState, _, first, rfl, ?_, ?_, rfl, rfl, rfl⟩
      · rw [isId, isRet]
      · rw [Vfs.filledIn, Vfs.nodeReplied, Vfs.setNode, middle, contents,
          isId]
        exact Function.update_idem ..

theorem getNodeWithLen_inv
    {parent : Nat}
    {name : CString}
    {len : Nat}
    {vfs : Vfs ω}
    {result : NodeResult ω}
    (returned : getNodeWithLen mounts parent name len vfs = some result) :
    (∃ link, findLink vfs parent name len = some (some link) ∧
        result = ((vfs.fslinks link).node, vfs)) ∨
      findLink vfs parent name len = some none ∧
        ((findFreeNode vfs = none ∧ result = (none, vfs)) ∨
          ∃ newNode, findFreeNode vfs = some newNode ∧
            Fetched mounts parent name len vfs newNode result) := by
  rcases Option.bind_eq_some_iff.mp returned with ⟨link, found, continued⟩
  cases link with
  | some link =>
      cases continued
      exact .inl ⟨link, found, rfl⟩
  | none =>
      refine .inr ⟨found, ?_⟩
      simp only at continued
      split at continued
      · rename_i full
        cases continued
        exact .inl ⟨full, rfl⟩
      · rename_i newNode free
        rcases Option.bind_eq_some_iff.mp continued with
          ⟨mount, first, retrieved⟩
        rcases Option.bind_eq_some_iff.mp retrieved with
          ⟨mount', second, filled⟩
        cases filled
        exact .inr ⟨newNode, free, .intro first rfl second rfl⟩

/-- A free entry of the table of nodes. -/
theorem findFreeNode_spec
    {vfs : Vfs ω}
    {node : Nat}
    (found : findFreeNode vfs = some node) :
    node < numFsnodes ∧ (vfs.fsnodes node).type = .empty := by
  have member := List.mem_of_find?_eq_some found
  have free := List.find?_some found
  exact ⟨List.mem_range.mp member, by simpa using free⟩

/-! ## What a lookup leaves alone -/

/-- The call reads or writes a file. -/
def FsCall.Transfers : FsCall → Prop
  | .fRead _ _ _ => True
  | .fWrite _ _ _ => True
  | _ => False

/-- The open files are as before, and no file was read or written. -/
structure Quiet (vfs vfs' : Vfs ω) : Prop where
  files : vfs'.openFiles = vfs.openFiles
  calls : ∃ calls, vfs'.calls = vfs.calls ++ calls ∧
    ∀ call ∈ calls, ¬ call.Transfers

namespace Quiet

theorem refl (vfs : Vfs ω) : Quiet vfs vfs :=
  ⟨rfl, [], by simp, by simp⟩

theorem trans
    {first second third : Vfs ω}
    (left : Quiet first second)
    (right : Quiet second third) :
    Quiet first third := by
  rcases left.calls with ⟨before, extended, quiet⟩
  rcases right.calls with ⟨after, extended', quiet'⟩
  refine ⟨right.files.trans left.files, before ++ after, ?_, ?_⟩
  · rw [extended', extended, List.append_assoc]
  · intro call member
    rcases List.mem_append.mp member with early | late
    · exact quiet call early
    · exact quiet' call late

theorem setNode
    (vfs : Vfs ω)
    (node : Nat)
    (contents : FsNode) :
    Quiet vfs (vfs.setNode node contents) :=
  ⟨rfl, [], (List.append_nil _).symm, by simp⟩

theorem nodeReplied
    (vfs : Vfs ω)
    (node : Nat)
    (reply : NodeReply ω)
    {call : FsCall}
    (quiet : ¬ call.Transfers) :
    Quiet vfs (vfs.nodeReplied node reply call) :=
  ⟨rfl, [call], rfl, by simpa using quiet⟩

end Quiet

/-- A lookup leaves the open files alone. -/
theorem getNodeWithLen_quiet
    {parent : Nat}
    {name : CString}
    {len : Nat}
    {vfs vfs' : Vfs ω}
    {found : Option Nat}
    (returned : getNodeWithLen mounts parent name len vfs =
      some (found, vfs')) :
    Quiet vfs vfs' := by
  rcases getNodeWithLen_inv returned with
    ⟨link, _, linked⟩ | ⟨_, ⟨_, full⟩ | ⟨newNode, _, fetched⟩⟩
  · cases linked
    exact .refl vfs
  · cases full
    exact .refl vfs
  · cases fetched
    exact (Quiet.setNode vfs newNode _).trans
      ((Quiet.nodeReplied _ parent _ (by simp [FsCall.Transfers])).trans
        (Quiet.nodeReplied _ newNode _ (by simp [FsCall.Transfers])))

/-! ## The walk by components -/

/-- The way from one node to another through the named directories. -/
inductive Walk
    (mounts : Nat → FsOps ω)
    (p : Int) :
    List Component → Nat → Vfs ω → Nat → Vfs ω → Prop where
  | done (node : Nat) (vfs : Vfs ω) : Walk mounts p [] node vfs node vfs
  | enter {dir child last : Nat} {vfs vfs' after : Vfs ω}
      {component : Component} {rest : List Component}
      (exec : canExec (vfs.fsnodes dir) p = true)
      (found : getNodeWithLen mounts dir component.name component.len vfs =
        some (some child, vfs'))
      (directory : (vfs'.fsnodes child).type = .directory)
      (onwards : Walk mounts p rest child vfs' last after) :
      Walk mounts p (component :: rest) dir vfs last after

/--
The way ends at a name which is not found, at a node which is no directory, or
at a directory which may not be entered.
-/
inductive Stuck
    (mounts : Nat → FsOps ω)
    (p : Int) :
    List Component → Nat → Vfs ω → Vfs ω → Prop where
  | here {dir : Nat} {vfs : Vfs ω} {components : List Component}
      (file : (vfs.fsnodes dir).type ≠ .directory) :
      Stuck mounts p components dir vfs vfs
  | missing {dir : Nat} {vfs vfs' : Vfs ω} {component : Component}
      {rest : List Component}
      (found : getNodeWithLen mounts dir component.name component.len vfs =
        some (none, vfs')) :
      Stuck mounts p (component :: rest) dir vfs vfs'
  | refused {dir child : Nat} {vfs vfs' : Vfs ω} {component : Component}
      {rest : List Component}
      (found : getNodeWithLen mounts dir component.name component.len vfs =
        some (some child, vfs'))
      (closed : (vfs'.fsnodes child).type ≠ .directory ∨
        canExec (vfs'.fsnodes child) p = false) :
      Stuck mounts p (component :: rest) dir vfs vfs'
  | enter {dir child : Nat} {vfs vfs' after : Vfs ω}
      {component : Component} {rest : List Component}
      (found : getNodeWithLen mounts dir component.name component.len vfs =
        some (some child, vfs'))
      (directory : (vfs'.fsnodes child).type = .directory)
      (onwards : Stuck mounts p rest child vfs' after) :
      Stuck mounts p (component :: rest) dir vfs after

/-- What every lookup keeps is kept along the way. -/
theorem Walk.invariant
    {inv : Vfs ω → Prop}
    {components : List Component}
    {node last : Nat}
    {vfs after : Vfs ω}
    (walk : Walk mounts p components node vfs last after)
    (kept : ∀ {parent name len vfs vfs' found},
      getNodeWithLen mounts parent name len vfs = some (found, vfs') →
        inv vfs → inv vfs')
    (initially : inv vfs) :
    inv after := by
  induction walk with
  | done node vfs => exact initially
  | enter _ found _ _ induction => exact induction (kept found initially)

theorem Stuck.invariant
    {inv : Vfs ω → Prop}
    {components : List Component}
    {node : Nat}
    {vfs after : Vfs ω}
    (stuck : Stuck mounts p components node vfs after)
    (kept : ∀ {parent name len vfs vfs' found},
      getNodeWithLen mounts parent name len vfs = some (found, vfs') →
        inv vfs → inv vfs')
    (initially : inv vfs) :
    inv after := by
  induction stuck with
  | here _ => exact initially
  | missing found => exact kept found initially
  | refused found _ => exact kept found initially
  | enter found _ _ induction => exact induction (kept found initially)

/-- The search for the next slash, on the rest of the path. -/
theorem strnchr_cases
    {str : CString}
    {n : Nat}
    (trimmed : Trimmed str n) :
    (strnchr str slash n = none ∧ ∀ k < n, str[k]? ≠ some slash) ∨
      ∃ len, strnchr str slash n = some len ∧ len < n ∧
        str[len]? = some slash ∧ ∀ k < len, str[k]? ≠ some slash := by
  have whole : strnlen str n = n := by
    rw [strnlen_eq]
    exact min_eq_right trimmed.le
  rw [strnchr, whole]
  cases found : memchr slash str n with
  | none => exact .inl ⟨rfl, memchr_eq_none found⟩
  | some len => exact .inr ⟨len, rfl, memchr_eq_some found⟩

/-- Entering the last directory of a path, and then all of it. -/
theorem Walk.enter_part
    {dir child last : Nat}
    {vfs vfs' after : Vfs ω}
    {str : CString}
    {len : Nat}
    {rest : List Component}
    (exec : canExec (vfs.fsnodes dir) p = true)
    (entered : (if 0 < len then getNodeWithLen mounts dir str len vfs
      else some (some dir, vfs)) = some (some child, vfs'))
    (directory : (vfs'.fsnodes child).type = .directory)
    (onwards : Walk mounts p rest child vfs' last after) :
    Walk mounts p ((if len = 0 then [] else [⟨str, len⟩]) ++ rest) dir vfs
      last after := by
  by_cases empty : len = 0
  · rw [if_neg (by omega)] at entered
    cases entered
    simpa [empty] using onwards
  · rw [if_pos (by omega)] at entered
    rw [if_neg empty]
    exact .enter exec entered directory onwards

theorem Stuck.enter_part
    {dir child : Nat}
    {vfs vfs' after : Vfs ω}
    {str : CString}
    {len : Nat}
    {rest : List Component}
    (entered : (if 0 < len then getNodeWithLen mounts dir str len vfs
      else some (some dir, vfs)) = some (some child, vfs'))
    (directory : (vfs'.fsnodes child).type = .directory)
    (onwards : Stuck mounts p rest child vfs' after) :
    Stuck mounts p ((if len = 0 then [] else [⟨str, len⟩]) ++ rest) dir vfs
      after := by
  by_cases empty : len = 0
  · rw [if_neg (by omega)] at entered
    cases entered
    simpa [empty] using onwards
  · rw [if_pos (by omega)] at entered
    rw [if_neg empty]
    exact .enter entered directory onwards

/-- A node which may not be passed through. -/
theorem Stuck.refuse_part
    {dir child : Nat}
    {vfs vfs' : Vfs ω}
    {str : CString}
    {len : Nat}
    {rest : List Component}
    (exec : canExec (vfs.fsnodes dir) p = true)
    (entered : (if 0 < len then getNodeWithLen mounts dir str len vfs
      else some (some dir, vfs)) = some (some child, vfs'))
    (closed : (vfs'.fsnodes child).type ≠ .directory ∨
      canExec (vfs'.fsnodes child) p = false) :
    Stuck mounts p ((if len = 0 then [] else [⟨str, len⟩]) ++ rest) dir vfs
      vfs' := by
  by_cases empty : len = 0
  · rw [if_neg (by omega)] at entered
    cases entered
    rcases closed with file | forbidden
    · exact .here file
    · rw [exec] at forbidden
      cases forbidden
  · rw [if_pos (by omega)] at entered
    rw [if_neg empty]
    exact .refused entered closed

/-- How the walk through these directories ends. -/
def Outcome
    (mounts : Nat → FsOps ω)
    (p : Int)
    (components : List Component)
    (node : Nat)
    (vfs : Vfs ω) :
    NodeResult ω → Prop
  | (some last, after) => Walk mounts p components node vfs last after
  | (none, after) => Stuck mounts p components node vfs after

/-- One part of the path and then the others. -/
theorem Outcome.enter_part
    {dir child : Nat}
    {vfs vfs' : Vfs ω}
    {str : CString}
    {len : Nat}
    {rest : List Component}
    {result : NodeResult ω}
    (exec : canExec (vfs.fsnodes dir) p = true)
    (entered : (if 0 < len then getNodeWithLen mounts dir str len vfs
      else some (some dir, vfs)) = some (some child, vfs'))
    (directory : (vfs'.fsnodes child).type = .directory)
    (onwards : Outcome mounts p rest child vfs' result) :
    Outcome mounts p ((if len = 0 then [] else [⟨str, len⟩]) ++ rest) dir vfs
      result := by
  rcases result with ⟨found, after⟩
  cases found with
  | some last => exact Walk.enter_part exec entered directory onwards
  | none => exact Stuck.enter_part entered directory onwards

/--
The loop walks through all components but the last.  The induction is on the
number of turns; what is left of the path is its rest from `path` on.
-/
theorem walkPath_outcome
    {str : CString}
    {fuel path parent : Nat}
    {vfs : Vfs ω}
    {result : NodeResult ω}
    (exec : canExec (vfs.fsnodes parent) p = true)
    (trimmed : Trimmed (str.drop path) (firstOfTrailing str - path))
    (returned : walkPath mounts p str (firstOfTrailing str)
      (memrchr slash str (firstOfTrailing str)) fuel path parent vfs =
        some result) :
    Outcome mounts p (components (str.drop path)).dropLast parent vfs
      result := by
  induction fuel generalizing path parent vfs with
  | zero => cases returned
  | succ fuel induction =>
      rw [walkPath] at returned
      rcases strnchr_cases trimmed with
        ⟨missing, plain⟩ | ⟨len, found, lt, here, first⟩
      · rw [missing] at returned
        cases returned
        rw [components_dropLast trimmed plain]
        exact Walk.done _ _
      · simp only [found] at returned
        rcases Option.bind_eq_some_iff.mp returned with
          ⟨⟨child, vfs'⟩, entered, continued⟩
        rcases trimmed.next lt here first with ⟨more, rest, split⟩
        rw [split]
        cases child with
        | none =>
            cases continued
            have positive : 0 < len := by
              by_contra empty
              rw [if_neg empty] at entered
              cases entered
            rw [if_pos positive] at entered
            rw [if_neg (by omega)]
            exact Stuck.missing entered
        | some child =>
            simp only at continued
            split at continued
            · rename_i file
              cases continued
              exact Stuck.refuse_part exec entered (.inl file)
            · rename_i directory
              rw [not_not] at directory
              split at continued
              · rename_i isLast
                cases continued
                apply Outcome.enter_part exec entered directory
                have no_more := (memrchr_eq_some isLast.symm).2.2
                rw [components_dropLast rest]
                · exact Walk.done _ _
                · intro k below
                  rw [List.getElem?_drop]
                  exact no_more _ (by omega) (by omega)
              · split at continued
                · rename_i forbidden
                  cases continued
                  exact Stuck.refuse_part exec entered
                    (.inr (by simpa using forbidden))
                · rename_i allowed
                  apply Outcome.enter_part exec entered directory
                  exact induction (by simpa using allowed) rest continued

/-- The function refuses the path at once, or walks. -/
theorem findParentCheckperm_outcome
    {root : Nat}
    {path : CString}
    {vfs : Vfs ω}
    {result : NodeResult ω}
    (returned : findParentCheckperm mounts root path p vfs = some result) :
    (result = (none, vfs) ∧ (path.head? ≠ some slash ∨
        canExec (vfs.fsnodes root) p = false)) ∨
      ∃ str, path = slash :: str ∧ canExec (vfs.fsnodes root) p = true ∧
        Outcome mounts p (components str).dropLast root vfs result := by
  cases path with
  | nil =>
      cases returned
      exact .inl ⟨rfl, .inl (by simp)⟩
  | cons first str =>
      rw [findParentCheckperm] at returned
      split at returned
      · rename_i relative
        cases returned
        exact .inl ⟨rfl, .inl (by simpa using relative)⟩
      · rename_i absolute
        rw [not_not] at absolute
        simp only at returned
        split at returned
        · rename_i forbidden
          cases returned
          exact .inl ⟨rfl, .inr (by simpa using forbidden)⟩
        · rename_i allowed
          have trimmed : Trimmed (str.drop 0) (firstOfTrailing str - 0) :=
            firstOfTrailing_trimmed str
          exact .inr ⟨str, by rw [absolute], by simpa using allowed,
            walkPath_outcome (by simpa using allowed) trimmed returned⟩

/-- What every lookup keeps is kept by the function. -/
theorem findParentCheckperm_invariant
    {inv : Vfs ω → Prop}
    {root : Nat}
    {path : CString}
    {found : Option Nat}
    {vfs after : Vfs ω}
    (returned : findParentCheckperm mounts root path p vfs =
      some (found, after))
    (kept : ∀ {parent name len vfs vfs' found},
      getNodeWithLen mounts parent name len vfs = some (found, vfs') →
        inv vfs → inv vfs')
    (initially : inv vfs) :
    inv after := by
  rcases findParentCheckperm_outcome returned with
    ⟨refused, _⟩ | ⟨str, _, _, outcome⟩
  · cases refused
    exact initially
  · cases found with
    | some last => exact Walk.invariant outcome kept initially
    | none => exact Stuck.invariant outcome kept initially

end ForsKernel.Fs
