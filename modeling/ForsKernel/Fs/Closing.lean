import ForsKernel.Fs.Descriptors

/-!
# Closes which fail

`__sys_close` gives the descriptor up before it asks `vfs_close` to release
the open file.  When `f_close` refuses, the open file stays in the table with
no descriptor left which refers to it.  As long as no close is refused, every
open file in use is referred to by exactly one descriptor.
-/

namespace ForsKernel.Fs

open ForsKernel.Lib.Transition
open ForsKernel.Proc

variable
  {ω : Type*}
  {mounts : Nat → FsOps ω}

/-! ## Refusals -/

/-- `vfs_close` returns `-1`: no file is open there, or `f_close` fails. -/
def VfsRefuses
    (mounts : Nat → FsOps ω)
    (vfs : Vfs ω)
    (fd : Nat) :
    Prop :=
  fd < numOpenFiles ∧
    ((vfs.openFiles fd).node = none ∨
      ∃ node ∈ (vfs.openFiles fd).node,
        ∃ mount ∈ (vfs.fsnodes node).mountpoint,
          ((mounts mount).fClose (vfs.openFiles fd) (vfs.fsnodes node)
            vfs.fsState).ret < 0)

/-- A descriptor in use whose open file is not released. -/
def CloseRefused
    (mounts : Nat → FsOps ω)
    (state : SysState ω)
    (pid : Nat)
    (pfd : Int) :
    Prop :=
  PfdValid pfd ∧ 0 ≤ state.fdOf pid pfd.toNat ∧
    VfsRefuses mounts state.vfs (state.fdOf pid pfd.toNat).toNat

instance
    (mounts : Nat → FsOps ω)
    (vfs : Vfs ω)
    (fd : Nat) :
    Decidable (VfsRefuses mounts vfs fd) :=
  inferInstanceAs (Decidable (_ ∧ (_ ∨ _)))

instance
    (mounts : Nat → FsOps ω)
    (state : SysState ω)
    (pid : Nat)
    (pfd : Int) :
    Decidable (CloseRefused mounts state pid pfd) :=
  inferInstanceAs (Decidable (_ ∧ _ ∧ _))

/-- The operation is not a close which is refused. -/
def Accepts
    (mounts : Nat → FsOps ω)
    (state : SysState ω) :
    SysOp → Prop
  | .sysClose pid pfd => ¬ CloseRefused mounts state pid pfd
  | _ => True

instance
    (mounts : Nat → FsOps ω)
    (state : SysState ω)
    (op : SysOp) :
    Decidable (Accepts mounts state op) :=
  match op with
  | .sysClose pid pfd =>
      inferInstanceAs (Decidable (¬ CloseRefused mounts state pid pfd))
  | .createProcess _ => .isTrue trivial
  | .sysOpen _ _ _ _ => .isTrue trivial
  | .sysRead _ _ _ => .isTrue trivial
  | .sysWrite _ _ _ _ => .isTrue trivial

section

variable
  {state state' : SysState ω}
  {vfs vfs' : Vfs ω}
  {pid fd : Nat}
  {pfd ret : Int}

/-- A refused close keeps the table of open files. -/
theorem vfsClose_refused (refuses : VfsRefuses mounts vfs fd) :
    ∃ vfs', vfsClose mounts fd vfs = some (-1, vfs') ∧ SameFiles vfs vfs' := by
  rcases refuses with ⟨lt, closed | ⟨node, isOpen, mount, mounted, negative⟩⟩
  · refine ⟨vfs, ?_, .refl _⟩
    rw [vfsClose, withFile, if_neg (by omega), closed]
  · generalize replyEq : (mounts mount).fClose (vfs.openFiles fd)
      (vfs.fsnodes node) vfs.fsState = reply at negative
    have returned : vfsClose mounts fd vfs = some (-1,
        vfs.fileReplied fd node reply (.fClose fd node reply.ret)) := by
      rw [vfsClose, withFile, if_neg (by omega), isOpen]
      simp only
      rw [mounted, Option.bind_some, replyEq, if_pos negative]
    exact ⟨_, returned, sameFiles_fileReplied _ _ _ _ _⟩

/-- Any other close which returns has freed the entry. -/
theorem vfsClose_accepted
    (accepted : ¬ VfsRefuses mounts vfs fd)
    (returned : vfsClose mounts fd vfs = some (ret, vfs')) :
    ret = 0 ∧ (vfs'.openFiles fd).node = none ∧
      ∀ other ≠ fd, SameFile vfs vfs' other := by
  rcases (vfsClose_cases returned).2 with ⟨failed, _⟩ | closed
  · refine (accepted ?_).elim
    rw [vfsClose, withFile] at returned
    split at returned
    · cases returned
    · rename_i lt
      refine ⟨by omega, ?_⟩
      split at returned
      · rename_i closed
        exact .inl closed
      · rename_i node isOpen
        rcases Option.bind_eq_some_iff.mp returned with ⟨mount, mounted, acted⟩
        simp only at acted
        split at acted
        · rename_i negative
          exact .inr ⟨node, isOpen, mount, mounted, negative⟩
        · cases acted
          exact absurd failed (by decide)
  · exact closed

theorem sysClose_refused (refused : CloseRefused mounts state pid pfd) :
    ∃ vfs', sysClose mounts pid pfd state =
        some (-1, { state.setFd pid pfd.toNat (-1) with vfs := vfs' }) ∧
      SameFiles state.vfs vfs' := by
  rcases refused with ⟨valid, used, refuses⟩
  rcases vfsClose_refused refuses with ⟨vfs', closed, same⟩
  refine ⟨vfs', ?_, same⟩
  rw [sysClose, withFd, if_neg (not_not.mpr valid)]
  simp only
  rw [if_neg (by omega)]
  show Option.map _ (vfsClose mounts _ state.vfs) = _
  rw [closed]
  rfl

/-- A close which is not refused did nothing, or released its open file. -/
theorem sysClose_accepted
    (accepted : ¬ CloseRefused mounts state pid pfd)
    (returned : sysClose mounts pid pfd state = some (ret, state')) :
    state' = state ∨ ∃ slot fd vfs', state.Refers pid pfd slot fd ∧ ret = 0 ∧
      state' = { state.setFd pid slot (-1) with vfs := vfs' } ∧
      (vfs'.openFiles fd).node = none ∧
      ∀ other ≠ fd, SameFile state.vfs vfs' other := by
  rcases sysClose_cases returned with
    same | ⟨slot, fd, vfs', ⟨valid, isSlot, isFd⟩, closed, rfl⟩
  · exact .inl same
  · have grants : ¬ VfsRefuses mounts state.vfs fd := by
      intro refuses
      apply accepted
      rw [CloseRefused, PfdValid, isSlot, Int.toNat_natCast, isFd,
        Int.toNat_natCast]
      exact ⟨⟨by omega, by omega⟩, by omega, refuses⟩
    rcases vfsClose_accepted grants closed with ⟨zero, freed, others⟩
    exact .inr ⟨slot, fd, vfs', ⟨valid, isSlot, isFd⟩, zero, rfl, freed,
      others⟩

end

/-! ## A single call -/

/-- The descriptors, the open files and all reference counts are the same. -/
structure SameTables (state state' : SysState ω) : Prop where
  fdmap : ∀ pid pfd, state'.fdOf pid pfd = state.fdOf pid pfd
  openFiles : state'.vfs.openFiles = state.vfs.openFiles
  refCount : ∀ node, (state'.vfs.fsnodes node).refCount =
    (state.vfs.fsnodes node).refCount

/-- A failed close has no effect just when it was not refused by the VFS. -/
theorem failed_close_iff
    (mounts : Nat → FsOps ω)
    (state : SysState ω)
    (pid : Nat)
    (pfd : Int) :
    (∀ ret state', sysClose mounts pid pfd state = some (ret, state') →
      ret < 0 → SameTables state state') ↔
        ¬ CloseRefused mounts state pid pfd := by
  constructor
  · rintro kept refused
    rcases sysClose_refused refused with ⟨vfs', returned, _⟩
    have lost := (kept _ _ returned (by decide)).fdmap pid pfd.toNat
    have used := refused.2.1
    rw [← lost] at used
    have given : SysState.fdOf
        { state.setFd pid pfd.toNat (-1) with vfs := vfs' } pid pfd.toNat =
          -1 :=
      state.setFd_fdOf_self pid pfd.toNat (-1)
    omega
  · intro accepted ret state' returned negative
    rcases sysClose_accepted accepted returned with
      rfl | ⟨_, _, _, _, zero, _⟩
    · exact ⟨fun _ _ => rfl, rfl, fun _ => rfl⟩
    · omega

/-! ## Runs -/

/-- A descriptor in use refers to this open file. -/
def SysState.RefersTo
    (state : SysState ω)
    (fd : Nat)
    (slot : Nat × Nat) :
    Prop :=
  state.InUse slot.1 slot.2 ∧ state.fdOf slot.1 slot.2 = fd

/-- Every open file is referred to by exactly one descriptor in use. -/
def OneDescriptor (state : SysState ω) : Prop :=
  ∀ fd < numOpenFiles, (state.vfs.openFiles fd).node ≠ none →
    ∃! slot, state.RefersTo fd slot

section

variable
  {state state' : SysState ω}
  {vfs' : Vfs ω}
  {pid slot fd : Nat}

theorem findFreeProcFd_spec (found : findFreeProcFd state pid = some slot) :
    slot < fdsPerProc ∧ state.fdOf pid slot = -1 := by
  rw [findFreeProcFd] at found
  split at found
  · cases found
  · have member := List.mem_of_find?_eq_some found
    have free := List.find?_some found
    exact ⟨List.mem_range.mp member, by simpa using free⟩

/-- Between isolated descriptors there is at most one. -/
theorem Isolated.oneDescriptor
    (isolated : Isolated state)
    (reached : ∀ fd < numOpenFiles, (state.vfs.openFiles fd).node ≠ none →
      ∃ slot, state.RefersTo fd slot) :
    OneDescriptor state := by
  intro fd lt isOpen
  rcases reached fd lt isOpen with ⟨slot, inUse, refers⟩
  refine ⟨slot, ⟨inUse, refers⟩, ?_⟩
  rintro other ⟨inUse', refers'⟩
  have same := isolated.distinct inUse' inUse (refers'.trans refers.symm)
  exact Prod.ext same.1 same.2

/-- A descriptor elsewhere still refers to its open file. -/
theorem SysState.RefersTo.setFd
    {other : Nat × Nat}
    (refers : state.RefersTo fd other)
    (value : Int)
    (elsewhere : other ≠ (pid, slot)) :
    SysState.RefersTo { state.setFd pid slot value with vfs := vfs' } fd
      other := by
  have apart : ¬ (other.1 = pid ∧ other.2 = slot) := by
    rintro ⟨rfl, rfl⟩
    exact elsewhere rfl
  have inUse : (state.setFd pid slot value).InUse other.1 other.2 :=
    (SysState.inUse_setFd apart).mpr refers.1
  refine ⟨⟨inUse.present, inUse.valid, inUse.used⟩, ?_⟩
  exact (state.setFd_fdOf_of_ne value apart).trans refers.2

/-- Descriptors do not depend on the VFS. -/
theorem SysState.RefersTo.congr
    {other : Nat × Nat}
    (refers : state.RefersTo fd other) :
    SysState.RefersTo { state with vfs := vfs' } fd other :=
  ⟨⟨refers.1.present, refers.1.valid, refers.1.used⟩, refers.2⟩

/-- Nothing new is open. -/
theorem OneDescriptor.keep
    (one : OneDescriptor state)
    (same : SameFiles state.vfs vfs')
    (lt : fd < numOpenFiles)
    (isOpen : (vfs'.openFiles fd).node ≠ none) :
    ∃ slot, SysState.RefersTo { state with vfs := vfs' } fd slot := by
  rw [(same fd).1] at isOpen
  rcases (one fd lt isOpen).exists with ⟨slot, refers⟩
  exact ⟨slot, refers.congr⟩

/-- A new process takes no descriptor away. -/
theorem OneDescriptor.createProcess
    (one : OneDescriptor state)
    (spec : ProcessSpec)
    (lt : fd < numOpenFiles)
    (isOpen : (state.vfs.openFiles fd).node ≠ none) :
    ∃ slot, SysState.RefersTo
      { state with procs := (createProcess spec state.procs).2 } fd slot := by
  rcases (one fd lt isOpen).exists with ⟨slot, inUse, refers⟩
  rcases createProcess_cases spec state.procs with
    failed | ⟨tid, _, absent, created⟩
  · rw [failed]
    exact ⟨slot, inUse, refers⟩
  · have different : slot.1 ≠ tid := by
      intro same
      have present := inUse.present.2
      rw [same, absent] at present
      cases present
    rw [created]
    refine ⟨slot, ⟨⟨inUse.present.1, ?_⟩, inUse.valid, ?_⟩, ?_⟩
    · simpa [Function.update_of_ne different] using inUse.present.2
    · simpa [SysState.fdOf, Function.update_of_ne different] using inUse.used
    · simpa [SysState.fdOf, Function.update_of_ne different] using refers

/-- An open gives the new entry a descriptor which was free. -/
theorem OneDescriptor.sysOpen
    (one : OneDescriptor state)
    (present : state.Present pid)
    {env : OpenEnv}
    {path : CString}
    {mode : Nat}
    {ret : Int}
    (returned : Fs.sysOpen mounts env pid path mode state = some (ret, state'))
    (lt : fd < numOpenFiles)
    (isOpen : (state'.vfs.openFiles fd).node ≠ none) :
    ∃ slot, state'.RefersTo fd slot := by
  rw [Fs.sysOpen] at returned
  split at returned
  · cases returned
    exact (one fd lt isOpen).exists
  · rename_i slot found
    rcases findFreeProcFd_spec found with ⟨valid, unused⟩
    split at returned
    · cases returned
    · rcases Option.map_eq_some_iff.mp returned with
        ⟨⟨fd', vfs⟩, opened, rest⟩
      rcases vfsOpen_cases opened with
        ⟨rfl, quiet⟩ |
          ⟨target, checked, fd', middle, _, quiet, lt', free, rfl, rfl⟩
      · rw [if_pos (show (-1 : Int) < 0 by decide)] at rest
        cases rest
        exact one.keep quiet.sameFiles lt isOpen
      · rw [if_neg (show ¬ ((fd' : Int) < 0) by omega)] at rest
        cases rest
        by_cases new : fd = fd'
        · refine ⟨(pid, slot), ⟨?_, valid, ?_⟩, ?_⟩
          · exact (SysState.setFd_present _ pid slot fd' pid).mpr present
          · rw [SysState.setFd_fdOf_self]
            omega
          · rw [SysState.setFd_fdOf_self, new]
        · have same : (middle.fillFile fd' target mode pid).openFiles fd =
              state.vfs.openFiles fd := by
            rw [← quiet.files]
            exact Function.update_of_ne new ..
          have wasOpen : (state.vfs.openFiles fd).node ≠ none := by
            rw [← same]
            exact isOpen
          rcases (one fd lt wasOpen).exists with ⟨other, refers⟩
          refine ⟨other, refers.congr.setFd fd' ?_⟩
          rintro rfl
          have used := refers.1.used
          rw [unused] at used
          omega

/-- A refused close leaves its open file without a descriptor. -/
theorem CloseRefused.not_oneDescriptor
    {pfd : Int}
    (refused : CloseRefused mounts state pid pfd)
    (isolated : Isolated state)
    (last : (sysSystem mounts).Step state (.sysClose pid pfd) state') :
    ¬ OneDescriptor state' := by
  have present : state.Present pid := last.1 pid rfl
  have returned : (Fs.sysClose mounts pid pfd state).map Prod.snd =
      some state' := last.2
  rcases sysClose_refused refused with ⟨vfs', closed, same⟩
  rw [closed, Option.map_some] at returned
  cases returned
  rcases refused with ⟨valid, used, refuses⟩
  have slotValid : pfd.toNat < fdsPerProc := by
    rcases valid with ⟨below, nonneg⟩
    omega
  have here : state.InUse pid pfd.toNat := ⟨present, slotValid, used⟩
  have isOpen := (isolated.refers here).2.1
  intro one'
  generalize fdEq : (state.fdOf pid pfd.toNat).toNat = fd at isOpen refuses
  rw [← (same fd).1] at isOpen
  rcases (one' fd refuses.1 isOpen).exists with ⟨other, inUse, refers⟩
  -- the descriptor which refers to it now did so before the call
  have apart : ¬ (other.1 = pid ∧ other.2 = pfd.toNat) := by
    intro same
    have used' := inUse.used
    have given : (state.setFd pid pfd.toNat (-1)).fdOf other.1 other.2 =
        -1 := by
      rw [same.1, same.2]
      exact state.setFd_fdOf_self pid pfd.toNat (-1)
    replace used' : 0 ≤ (state.setFd pid pfd.toNat (-1)).fdOf other.1
      other.2 := used'
    omega
  have inUse₁ : (state.setFd pid pfd.toNat (-1)).InUse other.1 other.2 :=
    ⟨inUse.present, inUse.valid, inUse.used⟩
  have inUse' : state.InUse other.1 other.2 :=
    (SysState.inUse_setFd apart).mp inUse₁
  have before := (state.setFd_fdOf_of_ne (-1) apart).symm.trans refers
  exact apart (isolated.distinct inUse' here (by omega))

/-- Any other close keeps the descriptors of the other open files. -/
theorem OneDescriptor.accepted
    {pfd ret : Int}
    (one : OneDescriptor state)
    (accepted : ¬ CloseRefused mounts state pid pfd)
    (returned : Fs.sysClose mounts pid pfd state = some (ret, state'))
    (lt : fd < numOpenFiles)
    (isOpen : (state'.vfs.openFiles fd).node ≠ none) :
    ∃ slot, state'.RefersTo fd slot := by
  rcases sysClose_accepted accepted returned with
    rfl | ⟨slot, fd', vfs', ⟨_, _, isFd⟩, _, rfl, freed, others⟩
  · exact (one fd lt isOpen).exists
  · have different : fd ≠ fd' := by
      rintro rfl
      exact isOpen freed
    have wasOpen : (state.vfs.openFiles fd).node ≠ none := by
      rw [← (others fd different).1]
      exact isOpen
    rcases (one fd lt wasOpen).exists with ⟨other, refers⟩
    refine ⟨other, refers.setFd (-1) ?_⟩
    rintro rfl
    have same := refers.2
    rw [isFd] at same
    exact different (by omega)

/-- One step keeps the property just when it is not a refused close. -/
theorem oneDescriptor_step
    {op : SysOp}
    (isolated : Isolated state)
    (one : OneDescriptor state)
    (last : (sysSystem mounts).Step state op state') :
    OneDescriptor state' ↔ Accepts mounts state op := by
  have isolated' := isolated.step last
  rcases last with ⟨legal, stepped⟩
  replace stepped : state.step mounts op = some state' := stepped
  cases op with
  | createProcess spec =>
      cases stepped
      exact iff_of_true (isolated'.oneDescriptor fun fd lt isOpen =>
        one.createProcess spec lt isOpen) trivial
  | sysOpen env pid path mode =>
      rcases Option.map_eq_some_iff.mp stepped with
        ⟨⟨ret, after⟩, returned, rfl⟩
      exact iff_of_true (isolated'.oneDescriptor fun fd lt isOpen =>
        one.sysOpen (legal pid rfl) returned lt isOpen) trivial
  | sysClose pid pfd =>
      constructor
      · intro one' refused
        exact refused.not_oneDescriptor isolated ⟨legal, stepped⟩ one'
      · intro accepted
        rcases Option.map_eq_some_iff.mp stepped with
          ⟨⟨ret, after⟩, returned, rfl⟩
        exact isolated'.oneDescriptor fun fd lt isOpen =>
          one.accepted accepted returned lt isOpen
  | sysRead pid pfd num =>
      rcases Option.map_eq_some_iff.mp stepped with
        ⟨⟨ret, bytes, after⟩, returned, rfl⟩
      refine iff_of_true (isolated'.oneDescriptor fun fd lt isOpen => ?_)
        trivial
      rcases sysRead_cases returned with rfl | ⟨_, _, vfs, _, read, rfl⟩
      · exact (one fd lt isOpen).exists
      · exact one.keep (vfsRead_spec read).2 lt isOpen
  | sysWrite pid pfd num buff =>
      rcases Option.map_eq_some_iff.mp stepped with
        ⟨⟨ret, after⟩, returned, rfl⟩
      refine iff_of_true (isolated'.oneDescriptor fun fd lt isOpen => ?_)
        trivial
      rcases sysWrite_cases returned with rfl | ⟨_, _, vfs, _, wrote, rfl⟩
      · exact (one fd lt isOpen).exists
      · exact one.keep (vfsWrite_spec wrote).2 lt isOpen

/--
A failed close has no effect exactly when the VFS did not refuse it, and in a
run every open file in use has exactly one descriptor at all times just when
no close of the run is refused.
-/
theorem close_leaks_iff
    {start target : SysState ω}
    {ops : List SysOp}
    (initial : (sysSystem mounts).init start)
    (run : (sysSystem mounts).Run start ops target) :
    (∀ state pid pfd, (∀ ret state',
        sysClose mounts pid pfd state = some (ret, state') →
        ret < 0 → SameTables state state') ↔
      ¬ CloseRefused mounts state pid pfd) ∧
    ((∀ done rest middle, ops = done ++ rest →
        (sysSystem mounts).Run start done middle → OneDescriptor middle) ↔
      ((sysSystem mounts).restrict (Accepts mounts)).Run start ops
        target) := by
  refine ⟨failed_close_iff mounts, ?_⟩
  have isolated : Isolated start := isolated_of_reachable (.start initial)
  have empty : OneDescriptor start := by
    intro fd _ isOpen
    exact (isOpen (initial.2 fd)).elim
  exact run.always_iff isolated empty
    (fun _ _ _ isolated last => isolated.step last)
    (fun _ _ _ isolated one last => oneDescriptor_step isolated one last)

end

/-! ## File systems which accept and which refuse a close -/

/-- Open the file `/a` twice and close it once. -/
def closeOnce : List SysOp :=
  [.createProcess plainSpec, .sysOpen slashEnv 0 [97] ofRead,
    .sysOpen slashEnv 0 [97] ofRead, .sysClose 0 0]

/-- After these calls, with a file system which accepts. -/
def closedSys : SysState Unit :=
  (((sysSystem fun _ => plainFs).restrict (Accepts fun _ => plainFs)).replay
    bootSys closeOnce).get (by decide +kernel)

theorem closedSys_run : ((sysSystem fun _ => plainFs).restrict
    (Accepts fun _ => plainFs)).Run bootSys closeOnce closedSys :=
  System.run_of_replay (.nil _) (Option.some_get _).symm

/-- The second open file has kept its descriptor. -/
theorem close_leaks_iff_accepted :
    (closedSys.vfs.openFiles 0).node = none ∧
      (closedSys.vfs.openFiles 1).node ≠ none ∧ OneDescriptor closedSys := by
  have run := closedSys_run.of_restrict
  have always := (close_leaks_iff bootSys_init run).2.mpr closedSys_run
  exact ⟨by decide +kernel, by decide +kernel,
    always closeOnce [] closedSys (by simp) run⟩

/-- Every file may be opened, and none may be closed. -/
def stubbornFs : FsOps Unit :=
  { plainFs with fClose := fun file node _ => ⟨-1, file.cursor, node, ()⟩ }

/-- A process has opened `/a`. -/
def openedSys : SysState Unit :=
  ((sysSystem fun _ => stubbornFs).replay bootSys
    [.createProcess plainSpec, .sysOpen slashEnv 0 [97] ofRead]).get
      (by decide +kernel)

/-- It has tried to close it. -/
def leakedSys : SysState Unit :=
  (SysState.step (fun _ => stubbornFs) openedSys (.sysClose 0 0)).get
    (by decide +kernel)

theorem sysSystem_step
    {state state' : SysState ω}
    {op : SysOp}
    (legal : (sysSystem mounts).legal state op)
    (stepped : state.step mounts op = some state') :
    (sysSystem mounts).Step state op state' :=
  ⟨legal, stepped⟩

/-- The close returns `-1`, and the open file has lost its descriptor. -/
theorem close_leaks :
    (sysSystem fun _ => stubbornFs).Reachable openedSys ∧
      (sysSystem fun _ => stubbornFs).Step openedSys (.sysClose 0 0)
        leakedSys ∧
      (sysClose (fun _ => stubbornFs) 0 0 openedSys).map Prod.fst =
        some (-1) ∧
      openedSys.fdOf 0 0 = 0 ∧ leakedSys.fdOf 0 0 = -1 ∧
      ¬ OneDescriptor leakedSys := by
  have reachable : (sysSystem fun _ => stubbornFs).Reachable openedSys :=
    System.reachable_of_replay ⟨fun _ => rfl, fun _ => rfl⟩
      (Option.some_get _).symm
  have last : (sysSystem fun _ => stubbornFs).Step openedSys
      (.sysClose 0 0) leakedSys :=
    sysSystem_step (by decide +kernel) (Option.some_get _).symm
  have refused : CloseRefused (fun _ => stubbornFs) openedSys 0 0 := by
    decide +kernel
  exact ⟨reachable, last, by decide +kernel, by decide +kernel,
    by decide +kernel,
    refused.not_oneDescriptor (isolated_of_reachable reachable) last⟩

end ForsKernel.Fs
