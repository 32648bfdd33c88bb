import ForsKernel.Lib.Transition
import ForsKernel.Fs.OpenFiles

/-!
# Permissions over whole runs

A session remembers for every descriptor the call of `vfs_open` which returned
it.  A descriptor is only handed out after all checks of its opening, and a
file is only read or written through a descriptor whose opening checked the
permission for it.
-/

namespace ForsKernel.Fs

open ForsKernel.Lib.Transition

variable
  {ω : Type*}
  {mounts : Nat → FsOps ω}

/-- A call of `vfs_open` and the state in which it was made. -/
structure Opening (ω : Type*) where
  before : Vfs ω
  proc : Int
  path : CString
  mode : Nat

/-- The call has checked what its mode needs of the node. -/
def Opening.Checked
    (mounts : Nat → FsOps ω)
    (opening : Opening ω)
    (node : Nat)
    (checked : Vfs ω) :
    Prop :=
  OpenChecks mounts opening.proc opening.path opening.mode opening.before
    node checked

/-- The VFS, and which call opened each descriptor last. -/
structure FileSession (ω : Type*) where
  vfs : Vfs ω
  openings : Nat → Option (Opening ω)

inductive VfsOp where
  | vfsOpen (p : Int) (path : CString) (mode : Nat)
  | vfsClose (fd : Nat)
  | vfsSeek (fd : Nat) (offset anchor : Int)
  | vfsRead (fd : Nat) (nbytes : Int)
  | vfsWrite (fd : Nat) (nbytes : Int) (kbuffer : CString)

namespace FileSession

/-- The opening is remembered under the descriptor it returned. -/
def opened
    (session : FileSession ω)
    (p : Int)
    (path : CString)
    (mode : Nat)
    (result : Int × Vfs ω) :
    FileSession ω where
  vfs := result.2
  openings :=
    if result.1 < 0 then session.openings
    else Function.update session.openings result.1.toNat
      (some ⟨session.vfs, p, path, mode⟩)

def step
    (mounts : Nat → FsOps ω)
    (session : FileSession ω) :
    VfsOp → Option (FileSession ω)
  | .vfsOpen p path mode =>
      (Fs.vfsOpen mounts p path mode session.vfs).map
        (session.opened p path mode)
  | .vfsClose fd =>
      (Fs.vfsClose mounts fd session.vfs).map fun result =>
        { session with vfs := result.2 }
  | .vfsSeek fd offset anchor =>
      (Fs.vfsSeek mounts fd offset anchor session.vfs).map fun result =>
        { session with vfs := result.2 }
  | .vfsRead fd nbytes =>
      (Fs.vfsRead mounts fd nbytes session.vfs).map fun result =>
        { session with vfs := result.2.2 }
  | .vfsWrite fd nbytes kbuffer =>
      (Fs.vfsWrite mounts fd nbytes kbuffer session.vfs).map fun result =>
        { session with vfs := result.2 }

end FileSession

/-- The VFS over arbitrary file systems; nothing is open at first. -/
def vfsSystem (mounts : Nat → FsOps ω) :
    System (FileSession ω) VfsOp where
  init := fun session => ∀ fd, (session.vfs.openFiles fd).node = none
  legal := fun _ _ => True
  step := FileSession.step mounts

theorem vfsSystem_step
    {session session' : FileSession ω}
    {op : VfsOp}
    (stepped : session.step mounts op = some session') :
    (vfsSystem mounts).Step session op session' :=
  ⟨trivial, stepped⟩

/-! ## Modes -/

/-- Reading is never granted by the mode which is stored. -/
theorem hasMode_read_of_stored
    {mode : Nat}
    (stored : HasMode (storedMode mode) ofRead) :
    HasMode mode ofRead := by
  rw [storedMode] at stored
  split at stored
  · rw [HasMode, Nat.and_or_distrib_right,
      show ofWrite &&& ofRead = 0 by decide, Nat.or_zero] at stored
    exact stored
  · exact stored

/-- Writing is stored for writing and for appending. -/
theorem hasMode_write_of_stored
    {mode : Nat}
    (stored : HasMode (storedMode mode) ofWrite) :
    HasMode mode ofWrite ∨ HasMode mode ofAppend := by
  rw [storedMode] at stored
  split at stored
  · rename_i appends
    exact .inr appends
  · exact .inl stored

/-! ## Every open file was checked -/

/-- Open files come from openings which checked them. -/
def FilesChecked
    (mounts : Nat → FsOps ω)
    (session : FileSession ω) :
    Prop :=
  ∀ fd node, (session.vfs.openFiles fd).node = some node →
    ∃ opening checked, session.openings fd = some opening ∧
      opening.Checked mounts node checked ∧
        (session.vfs.openFiles fd).mode = storedMode opening.mode

section

variable {session session' : FileSession ω}

theorem FilesChecked.keep
    (files : FilesChecked mounts session)
    {vfs : Vfs ω}
    (same : SameFiles session.vfs vfs) :
    FilesChecked mounts { session with vfs := vfs } := by
  intro fd node isOpen
  rcases same fd with ⟨sameNode, sameMode, _⟩
  show ∃ opening checked, session.openings fd = some opening ∧
    opening.Checked mounts node checked ∧
      (vfs.openFiles fd).mode = storedMode opening.mode
  rw [sameMode]
  exact files fd node (sameNode.symm.trans isOpen)

theorem FilesChecked.close
    (files : FilesChecked mounts session)
    {vfs : Vfs ω}
    {fd : Nat}
    (closed : (vfs.openFiles fd).node = none)
    (others : ∀ other ≠ fd, SameFile session.vfs vfs other) :
    FilesChecked mounts { session with vfs := vfs } := by
  intro other node isOpen
  have different : other ≠ fd := by
    rintro rfl
    rw [closed] at isOpen
    cases isOpen
  rcases others other different with ⟨sameNode, sameMode, _⟩
  show ∃ opening checked, session.openings other = some opening ∧
    opening.Checked mounts node checked ∧
      (vfs.openFiles other).mode = storedMode opening.mode
  rw [sameMode]
  exact files other node (sameNode.symm.trans isOpen)

theorem FilesChecked.opened
    (files : FilesChecked mounts session)
    {p : Int}
    {path : CString}
    {mode : Nat}
    {ret : Int}
    {after : Vfs ω}
    (returned : Fs.vfsOpen mounts p path mode session.vfs = some (ret, after)) :
    FilesChecked mounts (session.opened p path mode (ret, after)) := by
  rcases vfsOpen_cases returned with
    ⟨rfl, quiet⟩ |
      ⟨target, checked, fd, middle, checks, quiet, _, _, rfl, rfl⟩
  · rw [FileSession.opened, if_pos (show (-1 : Int) < 0 by decide)]
    exact files.keep quiet.sameFiles
  · have notNegative : ¬ ((fd : Int) < 0) := by omega
    intro other node isOpen
    simp only [FileSession.opened, if_neg notNegative, Int.toNat_natCast]
      at isOpen ⊢
    by_cases same : other = fd
    · subst same
      have isTarget : node = target := by
        simpa [Vfs.fillFile, Vfs.setFile, Vfs.setNode] using isOpen.symm
      subst isTarget
      refine ⟨⟨session.vfs, p, path, mode⟩, checked, by simp, checks, ?_⟩
      simp [Vfs.fillFile, Vfs.setFile, Vfs.setNode, storedMode]
    · have kept : (middle.fillFile fd target mode p).openFiles other =
          session.vfs.openFiles other := by
        rw [← quiet.files]
        exact Function.update_of_ne same ..
      rw [kept] at isOpen ⊢
      rw [Function.update_of_ne same]
      exact files other node isOpen

theorem FilesChecked.step
    (files : FilesChecked mounts session)
    {op : VfsOp}
    (last : (vfsSystem mounts).Step session op session') :
    FilesChecked mounts session' := by
  have stepped : session.step mounts op = some session' := last.2
  cases op with
  | vfsOpen p path mode =>
      rcases Option.map_eq_some_iff.mp stepped with
        ⟨⟨ret, after⟩, returned, rfl⟩
      exact files.opened returned
  | vfsClose fd =>
      rcases Option.map_eq_some_iff.mp stepped with
        ⟨⟨ret, after⟩, returned, rfl⟩
      rcases (vfsClose_cases returned).2 with
        ⟨_, same⟩ | ⟨_, closed, others⟩
      · exact files.keep same
      · exact files.close closed others
  | vfsSeek fd offset anchor =>
      rcases Option.map_eq_some_iff.mp stepped with
        ⟨⟨ret, after⟩, returned, rfl⟩
      exact files.keep (vfsSeek_spec returned).2
  | vfsRead fd nbytes =>
      rcases Option.map_eq_some_iff.mp stepped with
        ⟨⟨ret, bytes, after⟩, returned, rfl⟩
      exact files.keep (vfsRead_spec returned).2
  | vfsWrite fd nbytes kbuffer =>
      rcases Option.map_eq_some_iff.mp stepped with
        ⟨⟨ret, after⟩, returned, rfl⟩
      exact files.keep (vfsWrite_spec returned).2

theorem filesChecked_of_reachable
    (reachable : (vfsSystem mounts).Reachable session) :
    FilesChecked mounts session := by
  apply reachable.invariant
  · intro start closed fd node isOpen
    rw [closed fd] at isOpen
    cases isOpen
  · exact fun _ _ _ files last => files.step last

/-- Every step makes only reads and writes which its files allow. -/
theorem guarded_step
    {op : VfsOp}
    (last : (vfsSystem mounts).Step session op session') :
    Guarded session.vfs session'.vfs := by
  have stepped : session.step mounts op = some session' := last.2
  cases op with
  | vfsOpen p path mode =>
      rcases Option.map_eq_some_iff.mp stepped with
        ⟨⟨ret, after⟩, returned, rfl⟩
      rcases vfsOpen_cases returned with
        ⟨_, quiet⟩ | ⟨target, checked, fd, middle, _, quiet, _, _, _, rfl⟩
      · exact quiet.guarded
      · exact quiet.guarded
  | vfsClose fd =>
      rcases Option.map_eq_some_iff.mp stepped with
        ⟨⟨ret, after⟩, returned, rfl⟩
      exact (vfsClose_cases returned).1
  | vfsSeek fd offset anchor =>
      rcases Option.map_eq_some_iff.mp stepped with
        ⟨⟨ret, after⟩, returned, rfl⟩
      exact (vfsSeek_spec returned).1
  | vfsRead fd nbytes =>
      rcases Option.map_eq_some_iff.mp stepped with
        ⟨⟨ret, bytes, after⟩, returned, rfl⟩
      exact (vfsRead_spec returned).1
  | vfsWrite fd nbytes kbuffer =>
      rcases Option.map_eq_some_iff.mp stepped with
        ⟨⟨ret, after⟩, returned, rfl⟩
      exact (vfsWrite_spec returned).1

/--
Along every run: a descriptor is returned only after the checks of its path
and mode, and a file system is asked to read or write only a file whose
opening passed the check for it.
-/
theorem vfs_permission_sound
    {op : VfsOp}
    (reachable : (vfsSystem mounts).Reachable session)
    (last : (vfsSystem mounts).Step session op session') :
    (∀ p path mode fd after, op = .vfsOpen p path mode →
      Fs.vfsOpen mounts p path mode session.vfs = some (fd, after) →
      0 ≤ fd → ∃ target checked,
        OpenChecks mounts p path mode session.vfs target checked) ∧
    ∃ calls, session'.vfs.calls = session.vfs.calls ++ calls ∧
      (∀ fd node ret, .fRead fd node ret ∈ calls →
        (session.vfs.openFiles fd).node = some node ∧
        (session.vfs.fsnodes node).type = .file ∧
        ∃ opening checked, session.openings fd = some opening ∧
          opening.Checked mounts node checked ∧
          HasMode opening.mode ofRead ∧
          canRead (checked.fsnodes node) opening.proc = true) ∧
      (∀ fd node ret, .fWrite fd node ret ∈ calls →
        (session.vfs.openFiles fd).node = some node ∧
        (session.vfs.fsnodes node).type = .file ∧
        ∃ opening checked, session.openings fd = some opening ∧
          opening.Checked mounts node checked ∧
          (HasMode opening.mode ofWrite ∨ HasMode opening.mode ofAppend) ∧
          canWrite (checked.fsnodes node) opening.proc = true) := by
  have files := filesChecked_of_reachable reachable
  constructor
  · intro p path mode fd after _ returned nonneg
    rcases vfsOpen_cases returned with
      ⟨rfl, _⟩ | ⟨target, checked, _, _, checks, _⟩
    · exact absurd nonneg (by decide)
    · exact ⟨target, checked, checks⟩
  · rcases guarded_step last with ⟨calls, extended, reads, writes⟩
    refine ⟨calls, extended, ?_, ?_⟩
    · intro fd node ret member
      have allowed := reads fd node ret member
      rcases files fd node allowed.isOpen with
        ⟨opening, checked, isOpening, checks, mode⟩
      have reading := allowed.hasMode
      rw [mode] at reading
      have asked := hasMode_read_of_stored reading
      exact ⟨allowed.isOpen, allowed.isFile, opening, checked, isOpening,
        checks, asked, checks.readable asked⟩
    · intro fd node ret member
      have allowed := writes fd node ret member
      rcases files fd node allowed.isOpen with
        ⟨opening, checked, isOpening, checks, mode⟩
      have writing := allowed.hasMode
      rw [mode] at writing
      have asked := hasMode_write_of_stored writing
      exact ⟨allowed.isOpen, allowed.isFile, opening, checked, isOpening,
        checks, asked, checks.writable asked⟩

end

/-! ## Reading a file -/

/-- A file system in which every name is a file that everybody may read. -/
def plainFs : FsOps Unit where
  retrieveChild := fun parent _ _ _ => ⟨1, parent, ()⟩
  nodeFromId := fun id node _ =>
    ⟨0, { node with
      internalId := id, type := .file, perms := 1 <<< 6, refCount := 0,
      child := none }, ()⟩
  fOpen := fun node _ => ⟨0, node, ()⟩
  fClose := fun file node _ => ⟨0, file.cursor, node, ()⟩
  fSeek := fun file node _ _ _ => ⟨0, file.cursor, node, ()⟩
  fRead := fun file node _ _ => (⟨5, file.cursor, node, ()⟩, [])
  fWrite := fun file node _ _ _ => ⟨-1, file.cursor, node, ()⟩

/-- A node which is not in use. -/
def blankNode : FsNode :=
  ⟨none, 0, .empty, 0, 0, 0, none⟩

/-- Only the root directory is in memory, and everybody may enter it. -/
def rootOnly : Vfs Unit where
  vfsRoot := 0
  fsnodes := Function.update (fun _ => blankNode) 0
    ⟨some 0, 0, .directory, 1 <<< 8, 0, 0, none⟩
  fslinks := fun _ => ⟨[], none, none, none⟩
  openFiles := fun _ => ⟨none, 0, 0, 0⟩
  fsState := ()
  calls := []

instance
    (mounts : Nat → FsOps ω)
    (session : FileSession ω)
    (op : VfsOp) :
    Decidable ((vfsSystem mounts).legal session op) :=
  inferInstanceAs (Decidable True)

/-- Nothing has been opened. -/
def bootSession : FileSession Unit :=
  ⟨rootOnly, fun _ => none⟩

theorem bootSession_init : (vfsSystem fun _ => plainFs).init bootSession :=
  fun _ => rfl

/-- Process 3 has opened the file `/a` for reading. -/
def openedSession : FileSession Unit :=
  ((vfsSystem fun _ => plainFs).replay bootSession
    [.vfsOpen 3 [47, 97] ofRead]).get (by decide +kernel)

/-- It has read from the file. -/
def readSession : FileSession Unit :=
  (openedSession.step (fun _ => plainFs) (.vfsRead 0 5)).get
    (by decide +kernel)

theorem vfs_permission_sound_read :
    FsCall.fRead 0 1 5 ∈ readSession.vfs.calls ∧
      ∃ calls, readSession.vfs.calls = openedSession.vfs.calls ++ calls ∧
        ∀ fd node ret, .fRead fd node ret ∈ calls →
          (openedSession.vfs.fsnodes node).type = .file := by
  have reachable :
      (vfsSystem fun _ => plainFs).Reachable openedSession :=
    System.reachable_of_replay bootSession_init (Option.some_get _).symm
  have stepped : openedSession.step (fun _ => plainFs) (.vfsRead 0 5) =
      some readSession := by
    rw [readSession, Option.some_get]
  rcases (vfs_permission_sound reachable (vfsSystem_step stepped)).2 with
    ⟨calls, extended, reads, _⟩
  exact ⟨by decide +kernel, calls, extended,
    fun fd node ret member => (reads fd node ret member).2.1⟩

end ForsKernel.Fs
