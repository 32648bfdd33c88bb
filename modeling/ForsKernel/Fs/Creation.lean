import ForsKernel.Fs.FindParent
import ForsKernel.Fs.OpenFiles
import ForsKernel.Proc.Process

/-!
# Creating files and directories

`vfs_mkfile` and `vfs_mkdir` find the parent of the new name and tell its file
system.  The walk leaves the check of the last directory to its callers, and
these ask for write permission only.  Whether the parent could be entered was
checked if it is the root, or if a second slash stands before the new name and
makes the loop take another turn.
-/

namespace ForsKernel.Fs

open ForsKernel.Proc

variable
  {ω : Type*}
  {mounts : Nat → FsOps ω}

/-! ## The operations -/

/-- What a file system is told to make; the name is `NULL` if there is none. -/
structure NewFile where
  parent : Nat
  name : Option CString
  perms : Nat
  user : Int
  group : Int

/-- `newfile` or `newdir` of a file system, which may write to the parent. -/
abbrev NewFileOp (ω : Type*) := NewFile → FsNode → ω → NodeReply ω

/--
The common part of `vfs_mkfile` and `vfs_mkdir`: the value, what the file
system was told to make, and the state after it.  A parent which is not mounted
makes it fault, and so does an owner which cannot be read.
-/
def vfsCreate
    (mounts : Nat → FsOps ω)
    (create : Nat → NewFileOp ω)
    (owner : Option (Int × Int))
    (p : Int)
    (fullPath : CString)
    (perms : Nat)
    (vfs : Vfs ω) :
    Option (Int × Option NewFile × Vfs ω) :=
  (findParentCheckperm mounts vfs.vfsRoot fullPath p vfs).bind fun
    | (none, vfs) => some (-1, none, vfs)
    | (some parent, vfs) =>
        if !canWrite (vfs.fsnodes parent) p then some (-1, none, vfs)
        else
          (vfs.fsnodes parent).mountpoint.bind fun mount =>
            owner.bind fun (user, group) =>
              let file : NewFile :=
                ⟨parent, basename fullPath, perms, user, group⟩
              let reply := create mount file (vfs.fsnodes parent) vfs.fsState
              some (reply.ret, some file,
                { vfs.setNode parent reply.node with
                  fsState := reply.fsState })

/-- The new file belongs to the user of the process. -/
def vfsMkfile
    (mounts : Nat → FsOps ω)
    (newfile : Nat → NewFileOp ω)
    (procs : ProcTable)
    (p : Int)
    (fullPath : CString)
    (perms : Nat)
    (vfs : Vfs ω) :
    Option (Int × Option NewFile × Vfs ω) :=
  vfsCreate mounts newfile
    ((procAt procs p).map fun proc => (proc.uid, proc.gid)) p fullPath perms
    vfs

/-- The new directory belongs to the user 0. -/
def vfsMkdir
    (mounts : Nat → FsOps ω)
    (newdir : Nat → NewFileOp ω)
    (p : Int)
    (fullPath : CString)
    (perms : Nat)
    (vfs : Vfs ω) :
    Option (Int × Option NewFile × Vfs ω) :=
  vfsCreate mounts newdir (some (0, 0)) p fullPath perms vfs

section

variable
  {create : Nat → NewFileOp ω}
  {owner : Option (Int × Int)}
  {p : Int}
  {path : CString}
  {perms : Nat}
  {vfs : Vfs ω}

/-- A file system which is told to make something is told this. -/
theorem vfsCreate_inv
    {ret : Int}
    {file : NewFile}
    {after : Vfs ω}
    (returned : vfsCreate mounts create owner p path perms vfs =
      some (ret, some file, after)) :
    ∃ entered user group,
      findParentCheckperm mounts vfs.vfsRoot path p vfs =
        some (some file.parent, entered) ∧
      canWrite (entered.fsnodes file.parent) p = true ∧
      (entered.fsnodes file.parent).mountpoint ≠ none ∧
      owner = some (user, group) ∧
      file = ⟨file.parent, basename path, perms, user, group⟩ := by
  rcases Option.bind_eq_some_iff.mp returned with
    ⟨⟨parent, entered⟩, walked, continued⟩
  cases parent with
  | none => cases continued
  | some parent =>
      simp only at continued
      split at continued
      · cases continued
      · rename_i allowed
        rcases Option.bind_eq_some_iff.mp continued with
          ⟨mount, mounted, owned⟩
        rcases Option.bind_eq_some_iff.mp owned with
          ⟨⟨user, group⟩, isOwner, made⟩
        cases made
        exact ⟨entered, user, group, walked, by simpa using allowed,
          by simp [mounted], isOwner, rfl⟩

/-- It is told so whenever the parent is found and may be written to. -/
theorem vfsCreate_tells
    {parent mount : Nat}
    {entered : Vfs ω}
    (walked : findParentCheckperm mounts vfs.vfsRoot path p vfs =
      some (some parent, entered))
    (allowed : canWrite (entered.fsnodes parent) p = true)
    (mounted : (entered.fsnodes parent).mountpoint = some mount)
    (owned : owner.isSome) :
    ∃ ret file after, vfsCreate mounts create owner p path perms vfs =
      some (ret, some file, after) ∧ file.parent = parent := by
  rcases Option.isSome_iff_exists.mp owned with ⟨⟨user, group⟩, rfl⟩
  rw [vfsCreate, walked, Option.bind_some]
  simp only [allowed, Bool.not_true, Bool.false_eq_true, if_false, mounted,
    Option.bind_some]
  exact ⟨_, _, _, rfl, rfl⟩

end

/-- A new file is recorded as owned by the user of the process. -/
theorem vfsMkfile_owner
    {newfile : Nat → NewFileOp ω}
    {procs : ProcTable}
    {p ret : Int}
    {path : CString}
    {perms : Nat}
    {vfs vfs' : Vfs ω}
    {file : NewFile}
    {proc : Process}
    (isProc : procAt procs p = some proc)
    (returned : vfsMkfile mounts newfile procs p path perms vfs =
      some (ret, some file, vfs')) :
    file.user = proc.uid ∧ file.group = proc.gid ∧ file.perms = perms := by
  rcases vfsCreate_inv returned with ⟨_, user, group, _, _, _, isOwner, isFile⟩
  rw [isProc] at isOwner
  cases isOwner
  rw [isFile]
  exact ⟨rfl, rfl, rfl⟩

/-! ## Entering the parent -/

section

variable {p : Int}

/-- A walk goes on only from directories which may be entered. -/
theorem Walk.exec
    {comps : List Component}
    {node last : Nat}
    {vfs after : Vfs ω}
    (walk : Walk mounts p comps node vfs last after)
    (more : comps ≠ []) :
    canExec (vfs.fsnodes node) p = true := by
  cases walk with
  | done => exact (more rfl).elim
  | enter exec _ _ _ => exact exec

/-- There is one way through the named directories at most. -/
theorem Walk.unique
    {comps : List Component}
    {node last last' : Nat}
    {vfs after after' : Vfs ω}
    (walk : Walk mounts p comps node vfs last after)
    (other : Walk mounts p comps node vfs last' after') :
    last = last' ∧ after = after' := by
  induction walk with
  | done =>
      cases other
      exact ⟨rfl, rfl⟩
  | enter _ found _ _ induction =>
      cases other with
      | enter _ found' _ onwards =>
          rw [found] at found'
          cases found'
          exact induction onwards

/-- The walk with its checks, told by the function and by the relation. -/
theorem followChecked_some_iff
    {strict : Bool}
    {comps : List Component}
    {node last : Nat}
    {vfs after : Vfs ω}
    (exec : canExec (vfs.fsnodes node) p = true) :
    followChecked mounts p strict comps node vfs = some (some last, after) ↔
      Walk mounts p comps node vfs last after ∧
        (strict = true → canExec (after.fsnodes last) p = true) := by
  induction comps generalizing node vfs with
  | nil =>
      constructor
      · intro followed
        cases followed
        exact ⟨.done _ _, fun _ => exec⟩
      · rintro ⟨walk, _⟩
        cases walk
        rfl
  | cons component comps induction =>
      constructor
      · intro followed
        rcases Option.bind_eq_some_iff.mp followed with
          ⟨⟨child, middle⟩, found, continued⟩
        cases child with
        | none => cases continued
        | some child =>
            simp only at continued
            split at continued
            · cases continued
            · rename_i directory
              have isDirectory := not_not.mp directory
              split at continued
              · cases continued
              · rename_i passed
                by_cases allowed : canExec (middle.fsnodes child) p = true
                · rcases (induction allowed).mp continued with
                    ⟨walk, checked⟩
                  exact ⟨.enter exec found isDirectory walk, checked⟩
                · have closed := Bool.eq_false_iff.mpr allowed
                  have last : comps = [] ∧ strict = false := by
                    simpa [closed] using passed
                  rcases last with ⟨rfl, rfl⟩
                  cases continued
                  exact ⟨.enter exec found isDirectory (.done _ _), by simp⟩
      · rintro ⟨walk, checked⟩
        cases walk with
        | @enter _ child _ _ middle _ _ _ _ found directory onwards =>
            have passed : (comps ≠ [] ∨ strict = true) →
                canExec (middle.fsnodes child) p = true := by
              intro either
              by_cases more : comps = []
              · subst more
                cases onwards
                exact checked (either.resolve_left (by simp))
              · exact onwards.exec more
            rw [followChecked, found, Option.bind_some]
            simp only [directory, not_true_eq_false, if_false, ne_eq]
            rw [if_neg fun refused => by
              rw [passed refused.1] at refused
              cases refused.2]
            by_cases more : comps = []
            · subst more
              cases onwards
              rfl
            · exact (induction (onwards.exec more)).mpr ⟨onwards, checked⟩

/-- The parent is found if a walk leads there and the loop lets it pass. -/
theorem findParentCheckperm_some
    {str : CString}
    {root parent : Nat}
    {vfs entered : Vfs ω}
    (directory : (vfs.fsnodes root).type = .directory) :
    findParentCheckperm mounts root (slash :: str) p vfs =
        some (some parent, entered) ↔
      canExec (vfs.fsnodes root) p = true ∧
        Walk mounts p (components str).dropLast root vfs parent entered ∧
        (doubleSlash str = true →
          canExec (entered.fsnodes parent) p = true) := by
  rw [findParentCheckperm_eq str directory]
  by_cases exec : canExec (vfs.fsnodes root) p = true
  · simp [exec, followChecked_some_iff exec]
  · simp [exec]

end

/--
The process may enter the root, every directory of the path and the parent of
its last name, and may write to the parent.
-/
def MayCreate
    (mounts : Nat → FsOps ω)
    (p : Int)
    (path : CString)
    (vfs : Vfs ω)
    (parent : Nat) :
    Prop :=
  ∃ str entered, path = slash :: str ∧
    canExec (vfs.fsnodes vfs.vfsRoot) p = true ∧
    Walk mounts p (components str).dropLast vfs.vfsRoot vfs parent entered ∧
    canExec (entered.fsnodes parent) p = true ∧
    canWrite (entered.fsnodes parent) p = true

/--
The parent of the last name is the root, or a second slash stands before the
name, or the directory to which the path leads may be entered if it is mounted
and may be written to.
-/
def ParentEntered
    (mounts : Nat → FsOps ω)
    (p : Int)
    (path : CString)
    (vfs : Vfs ω) :
    Prop :=
  ∀ str, path = slash :: str →
    (components str).dropLast = [] ∨ doubleSlash str = true ∨
      ∀ parent entered,
        Walk mounts p (components str).dropLast vfs.vfsRoot vfs parent
          entered →
        canWrite (entered.fsnodes parent) p = true →
        (entered.fsnodes parent).mountpoint ≠ none →
        canExec (entered.fsnodes parent) p = true

/-- Something is created by a process which may, for either operation. -/
theorem vfsCreate_entered_iff
    {create : Nat → NewFileOp ω}
    {owner : Option (Int × Int)}
    {p : Int}
    {path : CString}
    {perms : Nat}
    {vfs : Vfs ω}
    (owned : owner.isSome)
    (directory : (vfs.fsnodes vfs.vfsRoot).type = .directory) :
    (∀ ret file after, vfsCreate mounts create owner p path perms vfs =
        some (ret, some file, after) →
          MayCreate mounts p path vfs file.parent) ↔
      ParentEntered mounts p path vfs := by
  constructor
  · intro always str isPath
    subst isPath
    by_cases isRoot : (components str).dropLast = []
    · exact .inl isRoot
    · by_cases double : doubleSlash str = true
      · exact .inr (.inl double)
      · refine .inr (.inr ?_)
        intro parent entered walk writable mounted
        have walked := (findParentCheckperm_some directory).mpr
          ⟨walk.exec isRoot, walk, fun isDouble => (double isDouble).elim⟩
        rcases Option.ne_none_iff_exists'.mp mounted with ⟨mount, isMount⟩
        rcases vfsCreate_tells walked writable isMount owned with
          ⟨ret, file, after, returned, rfl⟩
        rcases always ret file after returned with
          ⟨str', entered', isPath, _, walk', exec, _⟩
        cases isPath
        rw [(walk.unique walk').2]
        exact exec
  · intro entersParent ret file after returned
    rcases vfsCreate_inv returned with
      ⟨entered, _, _, walked, writable, mounted, _, _⟩
    rcases findParentCheckperm_walk walked with ⟨str, isPath, _⟩
    rw [isPath] at walked
    rcases (findParentCheckperm_some directory).mp walked with
      ⟨root, walk, checked⟩
    refine ⟨str, entered, isPath, root, walk, ?_, writable⟩
    rcases entersParent str isPath with isRoot | double | allowed
    · rw [isRoot] at walk
      rcases walk.unique (.done _ _) with ⟨same, rfl⟩
      rwa [same]
    · exact checked double
    · exact allowed _ _ walk writable mounted

/--
The file system is told to make a file or a directory only by processes which
may create it just when the parent is the root, when a second slash stands
before the name, or when the process may enter the parent.
-/
theorem create_entered_iff
    {vfs : Vfs ω}
    (directory : (vfs.fsnodes vfs.vfsRoot).type = .directory)
    (p : Int)
    (path : CString)
    (perms : Nat) :
    (∀ newfile procs proc, procAt procs p = some proc →
      ((∀ ret file after,
        vfsMkfile mounts newfile procs p path perms vfs =
          some (ret, some file, after) →
            MayCreate mounts p path vfs file.parent) ↔
        ParentEntered mounts p path vfs)) ∧
    ∀ newdir, (∀ ret file after,
      vfsMkdir mounts newdir p path perms vfs =
        some (ret, some file, after) →
          MayCreate mounts p path vfs file.parent) ↔
      ParentEntered mounts p path vfs := by
  constructor
  · intro newfile procs proc isProc
    exact vfsCreate_entered_iff (by rw [isProc]; rfl) directory
  · exact fun newdir => vfsCreate_entered_iff rfl directory

/-- A file system which makes whatever it is told to. -/
def makeAnything : Nat → NewFileOp Unit :=
  fun _ _ node _ => ⟨0, node, ()⟩

theorem create_entered_iff_double :
    ∃ ret file after,
      vfsMkdir testMounts makeAnything 0 (TestFs.text "/testdir1//new") 0
        dirVfs = some (ret, some file, after) ∧
      MayCreate testMounts 0 (TestFs.text "/testdir1//new") dirVfs
        file.parent := by
  have directory : (dirVfs.fsnodes dirVfs.vfsRoot).type = .directory := by
    decide +kernel
  have told : ((vfsMkdir testMounts makeAnything 0
      (TestFs.text "/testdir1//new") 0 dirVfs).any
        fun result => result.2.1.isSome) = true := by
    decide +kernel
  rcases (Option.any_eq_true _ _).mp told with
    ⟨⟨ret, file, after⟩, returned, isFile⟩
  rcases Option.isSome_iff_exists.mp isFile with ⟨file, rfl⟩
  refine ⟨ret, file, after, returned, ?_⟩
  apply ((create_entered_iff directory 0 _ 0).2 makeAnything).mpr _ ret file
    after returned
  intro str isPath
  cases isPath
  exact .inr (.inl (by decide))

/-- Everybody may write to `/testdir1`, and nobody may enter it. -/
def barredVfs : Vfs Unit :=
  dirVfs.setNode 1 { dirVfs.fsnodes 1 with perms := writeBits.other }

/-- A directory is made in one which may not be entered. -/
theorem create_without_entering :
    ¬ ∀ (p : Int) (path : CString) (perms : Nat) (vfs : Vfs Unit),
      (vfs.fsnodes vfs.vfsRoot).type = .directory →
      ∀ ret file after,
        vfsMkdir testMounts makeAnything p path perms vfs =
          some (ret, some file, after) →
        MayCreate testMounts p path vfs file.parent := by
  intro always
  have told : ((vfsMkdir testMounts makeAnything 0
      (TestFs.text "/testdir1/new") 0 barredVfs).any
        fun result => result.2.1.isSome) = true := by
    decide +kernel
  have barred : (followChecked testMounts 0 true
      (components (TestFs.text "testdir1/new")).dropLast 0 barredVfs).map
        Prod.fst = some none := by
    decide +kernel
  have directory : (barredVfs.fsnodes barredVfs.vfsRoot).type =
      .directory := by
    decide +kernel
  rcases (Option.any_eq_true _ _).mp told with
    ⟨⟨ret, file, after⟩, returned, isFile⟩
  rcases Option.isSome_iff_exists.mp isFile with ⟨file, rfl⟩
  rcases always 0 _ 0 barredVfs directory ret file after returned with
    ⟨str, entered, isPath, root, walk, exec, _⟩
  have split : TestFs.text "/testdir1/new" =
      slash :: TestFs.text "testdir1/new" := by decide
  rw [← (List.cons.inj (split.symm.trans isPath)).2] at walk
  have followed : followChecked testMounts 0 true _ _ barredVfs = some _ :=
    (followChecked_some_iff root).mpr ⟨walk, fun _ => exec⟩
  have found := congrArg (Option.map Prod.fst) followed
  exact absurd (barred.symm.trans found) (by simp)

end ForsKernel.Fs
