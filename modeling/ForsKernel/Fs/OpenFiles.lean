import ForsKernel.Fs.PathWalk

/-!
# What the operations do to the open files

Every operation of the VFS in terms of the table of open files and of the
calls it makes: `vfs_open` takes a free entry once its checks have passed,
`vfs_close` frees one, and the others leave node, mode and owner of every
entry alone.
-/

namespace ForsKernel.Fs

variable
  {ω : Type*}
  {mounts : Nat → FsOps ω}
  {p : Int}

/-! ## Opening -/

theorem findParentCheckperm_quiet
    {root : Nat}
    {path : CString}
    {found : Option Nat}
    {vfs after : Vfs ω}
    (returned : findParentCheckperm mounts root path p vfs =
      some (found, after)) :
    Quiet vfs after := by
  have kept {parent : Nat} {name : CString} {len : Nat} {middle next : Vfs ω}
      {found : Option Nat}
      (looked : getNodeWithLen mounts parent name len middle =
        some (found, next)) (quiet : Quiet vfs middle) : Quiet vfs next :=
    quiet.trans (getNodeWithLen_quiet looked)
  exact findParentCheckperm_invariant returned kept (.refl vfs)

/-- A parent which was found was reached through the directories of a path. -/
theorem findParentCheckperm_walk
    {root parent : Nat}
    {path : CString}
    {vfs after : Vfs ω}
    (returned : findParentCheckperm mounts root path p vfs =
      some (some parent, after)) :
    ∃ str, path = slash :: str ∧
      Walk mounts p (components str).dropLast root vfs parent after := by
  rcases findParentCheckperm_outcome returned with
    ⟨refused, _⟩ | ⟨str, absolute, _, walk⟩
  · cases refused
  · exact ⟨str, absolute, walk⟩

/--
The checks of `vfs_open` on the way to the node `target`: execute permission
on every directory of the path and on the parent, and the permissions on the
target which the mode asks for.  `checked` is the state at the last of them.
-/
structure OpenChecks
    (mounts : Nat → FsOps ω)
    (p : Int)
    (path : CString)
    (mode : Nat)
    (before : Vfs ω)
    (target : Nat)
    (checked : Vfs ω) :
    Prop where
  route : ∃ str parent entered name, path = slash :: str ∧
    Walk mounts p (components str).dropLast before.vfsRoot before parent
      entered ∧
    canExec (entered.fsnodes parent) p = true ∧
    basename path = some name ∧
    getNode mounts parent name entered = some (some target, checked)
  writable : HasMode mode ofWrite ∨ HasMode mode ofAppend →
    canWrite (checked.fsnodes target) p = true
  readable : HasMode mode ofRead →
    canRead (checked.fsnodes target) p = true

/-- The mode which an open file remembers. -/
def storedMode (mode : Nat) : Nat :=
  if HasMode mode ofAppend then mode ||| ofWrite else mode

/-- A free entry of the table. -/
theorem findFreeFd_spec
    {vfs : Vfs ω}
    {fd : Nat}
    (found : findFreeFd vfs = some fd) :
    fd < numOpenFiles ∧ (vfs.openFiles fd).node = none := by
  have member := List.mem_of_find?_eq_some found
  have free := List.find?_some found
  exact ⟨List.mem_range.mp member, by simpa using free⟩

/-- What `f_open` returns. -/
def Vfs.answer
    (vfs : Vfs ω)
    (mounts : Nat → FsOps ω)
    (mount node : Nat) :
    Int :=
  ((mounts mount).fOpen (vfs.fsnodes node) vfs.fsState).ret

/-- What `f_open` leaves behind. -/
def Vfs.asked
    (vfs : Vfs ω)
    (mounts : Nat → FsOps ω)
    (mount node : Nat) :
    Vfs ω :=
  vfs.nodeReplied node
    ((mounts mount).fOpen (vfs.fsnodes node) vfs.fsState)
    (.fOpen node ((mounts mount).fOpen (vfs.fsnodes node) vfs.fsState).ret)

/-- The permissions on a node which the mode asks for. -/
structure ModeAllowed
    (vfs : Vfs ω)
    (p : Int)
    (mode node : Nat) :
    Prop where
  writable : HasMode mode ofWrite ∨ HasMode mode ofAppend →
    canWrite (vfs.fsnodes node) p = true
  readable : HasMode mode ofRead → canRead (vfs.fsnodes node) p = true

/-- The ways through the second half of `vfs_open`. -/
theorem openNode_inv
    {mode node : Nat}
    {ret : Int}
    {vfs after : Vfs ω}
    (returned : openNode mounts p mode node vfs = some (ret, after)) :
    (¬ ModeAllowed vfs p mode node ∧ ret = -1 ∧ after = vfs) ∨
      ∃ mount, ModeAllowed vfs p mode node ∧
        (vfs.fsnodes node).mountpoint = some mount ∧
        ((ret = -1 ∧ after = vfs.asked mounts mount node ∧
            (vfs.answer mounts mount node < 0 ∨ findFreeFd vfs = none)) ∨
          ∃ fd, findFreeFd (vfs.asked mounts mount node) = some fd ∧
            ret = (fd : Int) ∧
            after = (vfs.asked mounts mount node).fillFile fd node mode p ∧
            0 ≤ vfs.answer mounts mount node) := by
  rw [openNode] at returned
  simp only at returned
  split at returned
  · rename_i writing
    cases returned
    refine .inl ⟨?_, rfl, rfl⟩
    intro allowed
    rw [allowed.writable writing.1.symm] at writing
    exact Bool.noConfusion writing.2
  · rename_i writable
    split at returned
    · rename_i reading
      cases returned
      refine .inl ⟨?_, rfl, rfl⟩
      intro allowed
      rw [allowed.readable reading.1] at reading
      exact Bool.noConfusion reading.2
    · rename_i readable
      have allowed : ModeAllowed vfs p mode node := by
        constructor
        · intro writes
          by_contra refused
          exact writable ⟨writes.symm, by simpa using refused⟩
        · intro reads
          by_contra refused
          exact readable ⟨reads, by simpa using refused⟩
      rcases Option.bind_eq_some_iff.mp returned with
        ⟨mount, mounted, opened⟩
      refine .inr ⟨mount, allowed, mounted, ?_⟩
      split at opened
      · rename_i refused
        cases opened
        exact .inl ⟨rfl, rfl, .inl refused⟩
      · rename_i granted
        split at opened
        · rename_i full
          cases opened
          exact .inl ⟨rfl, rfl, .inr full⟩
        · rename_i newFd found
          cases opened
          exact .inr ⟨newFd, found, rfl, rfl, Int.not_lt.mp granted⟩

theorem asked_quiet
    (mounts : Nat → FsOps ω)
    (vfs : Vfs ω)
    (mount node : Nat) :
    Quiet vfs (vfs.asked mounts mount node) :=
  .nodeReplied _ _ _ (by simp [FsCall.Transfers])

/-- The ways through `vfs_open`. -/
theorem vfsOpen_inv
    {path : CString}
    {mode : Nat}
    {ret : Int}
    {vfs after : Vfs ω}
    (returned : vfsOpen mounts p path mode vfs = some (ret, after)) :
    (∃ found, findParentCheckperm mounts vfs.vfsRoot path p vfs =
        some (found, after) ∧ ret = -1 ∧
        ∀ parent ∈ found, canExec (after.fsnodes parent) p = false) ∨
      ∃ parent entered name node checked,
        findParentCheckperm mounts vfs.vfsRoot path p vfs =
          some (some parent, entered) ∧
        canExec (entered.fsnodes parent) p = true ∧
        basename path = some name ∧
        getNode mounts parent name entered = some (some node, checked) ∧
        openNode mounts p mode node checked = some (ret, after) := by
  rcases Option.bind_eq_some_iff.mp returned with
    ⟨⟨parent, entered⟩, walked, continued⟩
  cases parent with
  | none =>
      cases continued
      exact .inl ⟨none, walked, rfl, by simp⟩
  | some parent =>
      simp only at continued
      split at continued
      · rename_i forbidden
        cases continued
        refine .inl ⟨some parent, walked, rfl, ?_⟩
        intro other isParent
        cases isParent
        simpa using forbidden
      · rename_i allowed
        rcases Option.bind_eq_some_iff.mp continued with
          ⟨name, isName, looked⟩
        rcases Option.bind_eq_some_iff.mp looked with
          ⟨⟨node, checked⟩, got, opened⟩
        cases node with
        | none => cases opened
        | some node =>
            exact .inr ⟨parent, entered, name, node, checked, walked,
              by simpa using allowed, isName, got, opened⟩

/-- `vfs_open` fails and leaves the table, or has checked everything. -/
theorem vfsOpen_cases
    {path : CString}
    {mode : Nat}
    {ret : Int}
    {vfs after : Vfs ω}
    (returned : vfsOpen mounts p path mode vfs = some (ret, after)) :
    (ret = -1 ∧ Quiet vfs after) ∨
      ∃ target checked fd middle,
        OpenChecks mounts p path mode vfs target checked ∧
          Quiet vfs middle ∧ fd < numOpenFiles ∧
          (vfs.openFiles fd).node = none ∧ ret = (fd : Int) ∧
          after = middle.fillFile fd target mode p := by
  rcases vfsOpen_inv returned with
    ⟨found, walked, failed, _⟩ |
      ⟨parent, entered, name, node, checked, walked, exec, isName, got,
        opened⟩
  · exact .inl ⟨failed, findParentCheckperm_quiet walked⟩
  · have quiet := (findParentCheckperm_quiet walked).trans
      (getNodeWithLen_quiet got)
    rcases openNode_inv opened with
      ⟨_, failed, rfl⟩ | ⟨mount, allowed, _, ⟨failed, rfl, _⟩ | success⟩
    · exact .inl ⟨failed, quiet⟩
    · exact .inl ⟨failed, quiet.trans (asked_quiet _ _ _ _)⟩
    · rcases success with ⟨fd, free, isFd, filled, _⟩
      rcases findParentCheckperm_walk walked with ⟨str, absolute, walk⟩
      rcases findFreeFd_spec free with ⟨lt, unused⟩
      have quiet' := quiet.trans (asked_quiet mounts checked mount node)
      rw [quiet'.files] at unused
      exact .inr ⟨node, checked, fd, _,
        ⟨⟨str, parent, entered, name, absolute, walk, exec, isName, got⟩,
          allowed.writable, allowed.readable⟩,
        quiet', lt, unused, isFd, filled⟩

/-! ## Operations on a descriptor -/

/-- The open file keeps its node, its mode and its owner. -/
def SameFile
    (vfs vfs' : Vfs ω)
    (fd : Nat) :
    Prop :=
  (vfs'.openFiles fd).node = (vfs.openFiles fd).node ∧
    (vfs'.openFiles fd).mode = (vfs.openFiles fd).mode ∧
    (vfs'.openFiles fd).proc = (vfs.openFiles fd).proc

def SameFiles (vfs vfs' : Vfs ω) : Prop :=
  ∀ fd, SameFile vfs vfs' fd

/-- The file may be read, or written, as the flag says. -/
structure MayTransfer
    (vfs : Vfs ω)
    (flag fd node : Nat) :
    Prop where
  isOpen : (vfs.openFiles fd).node = some node
  isFile : (vfs.fsnodes node).type = .file
  hasMode : HasMode (vfs.openFiles fd).mode flag

/-- Every read and write which was made was allowed before. -/
def Guarded (vfs vfs' : Vfs ω) : Prop :=
  ∃ calls, vfs'.calls = vfs.calls ++ calls ∧
    (∀ fd node ret, .fRead fd node ret ∈ calls →
      MayTransfer vfs ofRead fd node) ∧
    ∀ fd node ret, .fWrite fd node ret ∈ calls →
      MayTransfer vfs ofWrite fd node

theorem Quiet.sameFiles
    {vfs vfs' : Vfs ω}
    (quiet : Quiet vfs vfs') :
    SameFiles vfs vfs' := by
  intro fd
  rw [SameFile, quiet.files]
  exact ⟨rfl, rfl, rfl⟩

theorem Quiet.guarded
    {vfs vfs' : Vfs ω}
    (quiet : Quiet vfs vfs') :
    Guarded vfs vfs' := by
  rcases quiet.calls with ⟨calls, extended, quiet⟩
  refine ⟨calls, extended, ?_, ?_⟩
  · exact fun fd node ret member => (quiet _ member trivial).elim
  · exact fun fd node ret member => (quiet _ member trivial).elim

theorem SameFiles.refl (vfs : Vfs ω) : SameFiles vfs vfs :=
  (Quiet.refl vfs).sameFiles

theorem SameFiles.trans
    {first second third : Vfs ω}
    (left : SameFiles first second)
    (right : SameFiles second third) :
    SameFiles first third := by
  intro fd
  rcases left fd with ⟨node, mode, proc⟩
  rcases right fd with ⟨node', mode', proc'⟩
  exact ⟨node'.trans node, mode'.trans mode, proc'.trans proc⟩

/-- Only the cursor of an open file is written. -/
theorem sameFiles_setCursor
    (vfs : Vfs ω)
    (fd : Nat)
    (cursor : Int) :
    SameFiles vfs
      (vfs.setFile fd { vfs.openFiles fd with cursor := cursor }) := by
  intro other
  by_cases same : other = fd
  · subst same
    simp [SameFile, Vfs.setFile]
  · simp [SameFile, Vfs.setFile, same]

theorem sameFiles_fileReplied
    (vfs : Vfs ω)
    (fd node : Nat)
    (reply : FileReply ω)
    (call : FsCall) :
    SameFiles vfs (vfs.fileReplied fd node reply call) :=
  sameFiles_setCursor vfs fd reply.cursor

/-- A call which is no transfer is harmless. -/
theorem guarded_append
    {vfs vfs' : Vfs ω}
    {call : FsCall}
    (extended : vfs'.calls = vfs.calls ++ [call])
    (quiet : ¬ call.Transfers) :
    Guarded vfs vfs' := by
  refine ⟨[call], extended, ?_, ?_⟩
  · intro fd node ret member
    cases List.mem_singleton.mp member
    exact (quiet trivial).elim
  · intro fd node ret member
    cases List.mem_singleton.mp member
    exact (quiet trivial).elim

/-- The file is closed, or the operation goes on with its node. -/
theorem withFile_cases
    {α : Type*}
    {fd : Nat}
    {vfs : Vfs ω}
    {closed result : α}
    {act : FsOps ω → Nat → Option α}
    (returned : withFile mounts fd vfs closed act = some result) :
    result = closed ∨ ∃ mount node, fd < numOpenFiles ∧
      (vfs.openFiles fd).node = some node ∧
        act (mounts mount) node = some result := by
  rw [withFile] at returned
  split at returned
  · cases returned
  · split at returned
    · cases returned
      exact .inl rfl
    · rename_i inside _ node isOpen
      rcases Option.bind_eq_some_iff.mp returned with ⟨mount, _, acted⟩
      exact .inr ⟨mount, node, by omega, isOpen, acted⟩

/-- A close keeps the table, or frees the entry. -/
theorem vfsClose_cases
    {fd : Nat}
    {ret : Int}
    {vfs after : Vfs ω}
    (returned : vfsClose mounts fd vfs = some (ret, after)) :
    Guarded vfs after ∧
      ((ret = -1 ∧ SameFiles vfs after) ∨
        (ret = 0 ∧ (after.openFiles fd).node = none ∧
          ∀ other ≠ fd, SameFile vfs after other)) := by
  rcases withFile_cases returned with closed | ⟨mount, node, _, _, acted⟩
  · cases closed
    exact ⟨(Quiet.refl _).guarded, .inl ⟨rfl, .refl _⟩⟩
  · simp only at acted
    split at acted
    · cases acted
      exact ⟨guarded_append rfl (by simp [FsCall.Transfers]),
        .inl ⟨rfl, sameFiles_fileReplied _ _ _ _ _⟩⟩
    · cases acted
      refine ⟨guarded_append rfl (by simp [FsCall.Transfers]),
        .inr ⟨rfl, ?_, ?_⟩⟩
      · simp [Vfs.setFile]
      · intro other different
        simp [SameFile, Vfs.setFile, Vfs.setNode, Vfs.fileReplied, different]

theorem vfsSeek_spec
    {fd : Nat}
    {offset anchor ret : Int}
    {vfs after : Vfs ω}
    (returned : vfsSeek mounts fd offset anchor vfs = some (ret, after)) :
    Guarded vfs after ∧ SameFiles vfs after := by
  rcases withFile_cases returned with closed | ⟨mount, node, _, _, acted⟩
  · cases closed
    exact ⟨(Quiet.refl _).guarded, .refl _⟩
  · simp only at acted
    split at acted
    · cases acted
      exact ⟨guarded_append rfl (by simp [FsCall.Transfers]),
        sameFiles_fileReplied _ _ _ _ _⟩
    · cases acted
      exact ⟨guarded_append rfl (by simp [FsCall.Transfers]),
        (sameFiles_fileReplied _ _ _ _ _).trans
          (sameFiles_setCursor _ _ _)⟩

/-- Nothing happens, or the file is handed to its file system to be read. -/
theorem vfsRead_cases
    {fd : Nat}
    {nbytes ret : Int}
    {bytes : CString}
    {vfs after : Vfs ω}
    (returned : vfsRead mounts fd nbytes vfs = some (ret, bytes, after)) :
    after = vfs ∨ ∃ node reply, MayTransfer vfs ofRead fd node ∧
      after = vfs.fileReplied fd node reply (.fRead fd node ret) := by
  rw [vfsRead] at returned
  simp only at returned
  split at returned
  · cases returned
  · split at returned
    · cases returned
      exact .inl rfl
    · rename_i node isOpen
      split at returned
      · cases returned
        exact .inl rfl
      · rename_i isFile
        rw [not_not] at isFile
        split at returned
        · cases returned
          exact .inl rfl
        · rename_i hasMode
          rw [not_not] at hasMode
          rcases Option.bind_eq_some_iff.mp returned with ⟨mount, _, read⟩
          cases read
          exact .inr ⟨node, _, ⟨isOpen, isFile, hasMode⟩, rfl⟩

/-- Nothing happens, or the file is handed to its file system to be written. -/
theorem vfsWrite_cases
    {fd : Nat}
    {nbytes ret : Int}
    {kbuffer : CString}
    {vfs after : Vfs ω}
    (returned : vfsWrite mounts fd nbytes kbuffer vfs = some (ret, after)) :
    after = vfs ∨ ∃ node reply, MayTransfer vfs ofWrite fd node ∧
      after = vfs.fileReplied fd node reply (.fWrite fd node ret) := by
  rw [vfsWrite] at returned
  simp only at returned
  split at returned
  · cases returned
  · split at returned
    · cases returned
      exact .inl rfl
    · rename_i node isOpen
      split at returned
      · cases returned
        exact .inl rfl
      · rename_i isFile
        rw [not_not] at isFile
        split at returned
        · cases returned
          exact .inl rfl
        · rename_i hasMode
          rw [not_not] at hasMode
          rcases Option.bind_eq_some_iff.mp returned with ⟨mount, _, wrote⟩
          cases wrote
          exact .inr ⟨node, _, ⟨isOpen, isFile, hasMode⟩, rfl⟩

/-- A file is read only if it may be. -/
theorem vfsRead_spec
    {fd : Nat}
    {nbytes ret : Int}
    {bytes : CString}
    {vfs after : Vfs ω}
    (returned : vfsRead mounts fd nbytes vfs = some (ret, bytes, after)) :
    Guarded vfs after ∧ SameFiles vfs after := by
  rcases vfsRead_cases returned with rfl | ⟨node, reply, allowed, rfl⟩
  · exact ⟨(Quiet.refl _).guarded, .refl _⟩
  · refine ⟨⟨[_], rfl, ?_, ?_⟩, sameFiles_fileReplied _ _ _ _ _⟩
    · intro other node' ret' member
      cases List.mem_singleton.mp member
      exact allowed
    · intro other node' ret' member
      cases List.mem_singleton.mp member

/-- A file is written only if it may be. -/
theorem vfsWrite_spec
    {fd : Nat}
    {nbytes ret : Int}
    {kbuffer : CString}
    {vfs after : Vfs ω}
    (returned : vfsWrite mounts fd nbytes kbuffer vfs = some (ret, after)) :
    Guarded vfs after ∧ SameFiles vfs after := by
  rcases vfsWrite_cases returned with rfl | ⟨node, reply, allowed, rfl⟩
  · exact ⟨(Quiet.refl _).guarded, .refl _⟩
  · refine ⟨⟨[_], rfl, ?_, ?_⟩, sameFiles_fileReplied _ _ _ _ _⟩
    · intro other node' ret' member
      cases List.mem_singleton.mp member
    · intro other node' ret' member
      cases List.mem_singleton.mp member
      exact allowed

end ForsKernel.Fs
