import ForsKernel.Syscall.Refinement

/-!
# Processes do not disturb each other

Whatever the other processes and the scheduler do, a process which makes no
system call itself keeps its entry in the process table, but for its saved
registers, and finds its open files as it left them.
-/

namespace ForsKernel.Syscall

open ForsKernel.Fs
open ForsKernel.Lib.Transition
open ForsKernel.Proc

variable
  {ω : Type*}
  {mounts : Nat → FsOps ω}

/-! ## One system call of somebody else -/

/-- The entry of the process and all its open files are as before. -/
structure Undisturbed
    (state state' : SysState ω)
    (pid : Nat) :
    Prop where
  entry : eraseCtx (state'.procs pid) = eraseCtx (state.procs pid)
  files : ∀ {pfd}, state.InUse pid pfd →
    state'.vfs.openFiles (state.fdOf pid pfd).toNat =
      state.vfs.openFiles (state.fdOf pid pfd).toNat

section

variable
  {state state' state'' : SysState ω}
  {pid pfd : Nat}

theorem Undisturbed.refl
    (state : SysState ω)
    (pid : Nat) :
    Undisturbed state state pid :=
  ⟨rfl, fun _ => rfl⟩

theorem Undisturbed.fdOf
    (same : Undisturbed state state' pid)
    (pfd : Nat) :
    state'.fdOf pid pfd = state.fdOf pid pfd :=
  congrFun (congrArg Process.fdmap same.entry) pfd

theorem Undisturbed.present (same : Undisturbed state state' pid) :
    state'.Present pid ↔ state.Present pid := by
  have present := congrArg Process.present same.entry
  have table : (state'.procs pid).present = (state.procs pid).present :=
    present
  rw [SysState.Present, SysState.Present, table]

theorem Undisturbed.trans
    (first : Undisturbed state state' pid)
    (second : Undisturbed state' state'' pid) :
    Undisturbed state state'' pid := by
  refine ⟨second.entry.trans first.entry, ?_⟩
  intro pfd inUse
  have later : state'.InUse pid pfd := by
    refine ⟨first.present.mpr inUse.present, inUse.valid, ?_⟩
    rw [first.fdOf]
    exact inUse.used
  have files := second.files later
  rw [first.fdOf] at files
  exact files.trans (first.files inUse)

/-- Registers do not matter. -/
theorem Undisturbed.of_erase
    {model : SysState ω}
    (same : Undisturbed state state' pid)
    (equal : erase model = erase state') :
    Undisturbed state model pid := by
  have procs := congrFun (congrArg SysState.procs equal) pid
  have vfs := congrArg SysState.vfs equal
  rw [erase_vfs, erase_vfs] at vfs
  refine ⟨procs.trans same.entry, ?_⟩
  intro pfd inUse
  rw [vfs]
  exact same.files inUse

/-- The caller's descriptors are all that a call changes in the table. -/
theorem OnlyFdmap.procs_of_ne
    {caller : Nat}
    (only : OnlyFdmap state state' caller)
    (different : pid ≠ caller) :
    state'.procs pid = state.procs pid := by
  rw [OnlyFdmap] at only
  rw [only, Function.update_of_ne different]

/-- The open files of a process are not those of another one. -/
theorem fdOf_ne_of_isolated
    (isolated : Isolated state)
    {other slot : Nat}
    (inUse : state.InUse pid pfd)
    (inUse' : state.InUse other slot)
    (different : pid ≠ other) :
    (state.fdOf pid pfd).toNat ≠ (state.fdOf other slot).toNat := by
  intro same
  have used := inUse.used
  have used' := inUse'.used
  exact different (isolated.distinct inUse inUse' (by omega)).1

/-- An open fills a free entry, and leaves the open files alone. -/
theorem sysOpen_openFiles
    {env : OpenEnv}
    {path : CString}
    {mode fd : Nat}
    {ret : Int}
    (called : sysOpen mounts env pid path mode state = some (ret, state'))
    (isOpen : (state.vfs.openFiles fd).node ≠ none) :
    state'.vfs.openFiles fd = state.vfs.openFiles fd := by
  rw [sysOpen] at called
  split at called
  · cases called
    rfl
  · split at called
    · cases called
    · rcases Option.map_eq_some_iff.mp called with
        ⟨⟨newFd, vfs⟩, opened, rest⟩
      have files : vfs.openFiles fd = state.vfs.openFiles fd := by
        rcases vfsOpen_cases opened with
          ⟨_, quiet⟩ |
            ⟨target, checked, free, middle, _, quiet, _, unused, _, rfl⟩
        · rw [quiet.files]
        · rw [← quiet.files]
          apply Function.update_of_ne
          rintro rfl
          exact isOpen unused
      split at rest
      · cases rest
        exact files
      · cases rest
        exact files

/-- A call changes no open file but a free one or one of its caller's. -/
theorem openFiles_of_other
    (isolated : Isolated state)
    (inUse : state.InUse pid pfd)
    {op : SysOp}
    {caller : Nat}
    (isCaller : op.caller = some caller)
    (different : pid ≠ caller)
    (last : (sysSystem mounts).Step state op state') :
    state'.vfs.openFiles (state.fdOf pid pfd).toNat =
      state.vfs.openFiles (state.fdOf pid pfd).toNat := by
  cases uses : op.uses with
  | some descriptor =>
      rcases descriptor with ⟨user, slot⟩
      have same : user = caller := by
        have member := SysOp.caller_of_uses uses
        rw [isCaller] at member
        exact (Option.some.inj member).symm
      subst same
      rcases onlyFile_step last uses with
        rfl | ⟨slot', fd, ⟨valid, _, isFd⟩, only⟩
      · rfl
      · have inUse' : state.InUse user slot' :=
          ⟨last.1 user isCaller, valid, by omega⟩
        have apart := fdOf_ne_of_isolated isolated inUse inUse' different
        rw [isFd, Int.toNat_natCast] at apart
        exact only.others _ apart
  | none =>
      cases op with
      | createProcess spec => cases isCaller
      | sysClose user slot => cases uses
      | sysRead user slot num => cases uses
      | sysWrite user slot num buff => cases uses
      | sysOpen env user path mode =>
          rcases Option.map_eq_some_iff.mp last.2 with
            ⟨⟨ret, _⟩, called, rfl⟩
          exact sysOpen_openFiles called (isolated.refers inUse).2.1

/-- What somebody else does leaves a process undisturbed. -/
theorem undisturbed_step
    (isolated : Isolated state)
    (present : state.Present pid)
    {op : SysOp}
    (other : op.caller ≠ some pid)
    (last : (sysSystem mounts).Step state op state') :
    Undisturbed state state' pid := by
  cases isCaller : op.caller with
  | some caller =>
      have different : pid ≠ caller := by
        rintro rfl
        exact other isCaller
      have table := (onlyFdmap_step isCaller last.2).procs_of_ne different
      exact ⟨congrArg eraseCtx table,
        fun inUse => openFiles_of_other isolated inUse isCaller different last⟩
  | none =>
      cases op with
      | createProcess spec =>
          have made := Option.some.inj last.2
          rw [← made]
          refine ⟨?_, fun _ => rfl⟩
          rcases createProcess_cases spec state.procs with
            refused | ⟨tid, lt, absent, created⟩
          · rw [refused]
          · rw [created]
            have different : pid ≠ tid := by
              rintro rfl
              rw [present.2] at absent
              cases absent
            exact congrArg eraseCtx (Function.update_of_ne different ..)
      | sysOpen env user path mode => cases isCaller
      | sysClose user slot => cases isCaller
      | sysRead user slot num => cases isCaller
      | sysWrite user slot num buff => cases isCaller

/-- Many calls of others leave it undisturbed as well. -/
theorem undisturbed_run
    {ops : List SysOp}
    (isolated : Isolated state)
    (present : state.Present pid)
    (run : (sysSystem mounts).Run state ops state')
    (others : ∀ op ∈ ops, op.caller ≠ some pid) :
    Undisturbed state state' pid := by
  have result : Isolated state' ∧ Undisturbed state state' pid := by
    apply (run.restrict_of fun op member _ => others op member).invariant
      ⟨isolated, .refl state pid⟩
    rintro middle op next ⟨holds, same⟩ ⟨⟨legal, other⟩, stepped⟩
    have last : (sysSystem mounts).Step middle op next := ⟨legal, stepped⟩
    exact ⟨holds.step last,
      same.trans (undisturbed_step holds (same.present.mpr present) other
        last)⟩
  exact result.2

end

/-! ## Runs of the whole kernel -/

section

variable {source target : KernelState ω}

/-- The descriptors are isolated in the whole kernel. -/
theorem isolated_of_kernel
    (reachable : (kernelSystem mounts).Reachable source) :
    Isolated (erase source.sys) := by
  rcases refinesCalls.reachable reachable with ⟨model, here, same⟩
  have isolated := isolated_of_reachable here
  rw [← same]
  exact ⟨fun inUse => isolated.refers ⟨inUse.present, inUse.valid,
      inUse.used⟩,
    fun inUse inUse' => isolated.distinct
      ⟨inUse.present, inUse.valid, inUse.used⟩
      ⟨inUse'.present, inUse'.valid, inUse'.used⟩⟩

/-- The calls which the VFS sees are those of the process which runs. -/
theorem caller_of_sysView
    {event : KernelEvent}
    {pid : Nat}
    (silent : source.caller event ≠ some pid) :
    ∀ op ∈ source.sysView event, op.caller ≠ some pid := by
  cases event with
  | createProcess spec =>
      intro op member
      cases List.mem_singleton.mp member
      exact Option.some_ne_none pid |>.symm
  | enqueueProc tid => simp [KernelState.sysView]
  | startRunning => simp [KernelState.sysView]
  | interrupt memory ctx =>
      rw [KernelState.caller] at silent
      rw [KernelState.sysView]
      split
      · rename_i isCall
        rw [if_pos isCall] at silent
        intro op member
        have known := Option.mem_toList.mp member
        have caller : op.caller = some source.runner := by
          unfold decoded at known
          split at known <;> cases known <;> rfl
        rw [caller]
        exact silent
      · simp

end

/-! ## While the second process opens a file -/

/-- The kernel after the first process has opened its file. -/
def firstOpened : KernelState Unit :=
  ((kernelSystem fun _ => plainFs).replay bootKernel firstOpens).get
    (by decide +kernel)

instance
    (state : KernelState ω)
    (pid : Nat)
    (event : KernelEvent) :
    Decidable (((kernelSystem mounts).restrict fun state event =>
      state.caller event ≠ some pid).legal state event) :=
  inferInstanceAs (Decidable (_ ∧ _))

/-- The second process has opened its file in the meantime. -/
def secondOpened : KernelState Unit :=
  (((kernelSystem fun _ => plainFs).restrict fun state event =>
    state.caller event ≠ some 0).replay firstOpened secondOpens).get
      (by decide +kernel)

end ForsKernel.Syscall
