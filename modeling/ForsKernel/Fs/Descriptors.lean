import ForsKernel.Fs.Permissions
import ForsKernel.Proc.Process

/-!
# Descriptors of processes

`generic/fs/sys.c` gives every process a table of its own descriptors, which
refer to the open files of the VFS.  Whatever the processes do, no open file
is shared: every descriptor in use refers to an open file of its own process,
and no two descriptors refer to the same one.
-/

namespace ForsKernel.Fs

open ForsKernel.Lib.Transition
open ForsKernel.Proc

variable
  {ω : Type*}
  {mounts : Nat → FsOps ω}

/-! ## System calls -/

/-- The process table and the VFS. -/
structure SysState (ω : Type*) where
  procs : ProcTable
  vfs : Vfs ω

/-- `procs[pid].fdmap[pfd]`. -/
def SysState.fdOf
    (state : SysState ω)
    (pid pfd : Nat) :
    Int :=
  (state.procs pid).fdmap pfd

/-- `procs[pid].fdmap[pfd] = fd`. -/
def SysState.setFd
    (state : SysState ω)
    (pid pfd : Nat)
    (fd : Int) :
    SysState ω :=
  { state with
    procs := Function.update state.procs pid
      { state.procs pid with
        fdmap := Function.update (state.procs pid).fdmap pfd fd } }

/-- The first free descriptor; the source returns `-1` if there is none. -/
def findFreeProcFd
    (state : SysState ω)
    (pid : Nat) :
    Option Nat :=
  if maxProcs ≤ pid then none
  else firstIndex fdsPerProc fun pfd => state.fdOf pid pfd == -1

/-- `PFD_VALID`. -/
def PfdValid (pfd : Int) : Prop :=
  pfd < fdsPerProc ∧ 0 ≤ pfd

instance (pfd : Int) : Decidable (PfdValid pfd) :=
  inferInstanceAs (Decidable (_ ∧ _))

/-- What `__sys_open` finds in memory: the strings, and room for a new one. -/
structure OpenEnv where
  string : Nat → CString
  allocated : Bool

/-- Without memory for the full path the kernel panics. -/
def sysOpen
    (mounts : Nat → FsOps ω)
    (env : OpenEnv)
    (currentProc : Nat)
    (path : CString)
    (mode : Nat)
    (state : SysState ω) :
    Option (Int × SysState ω) :=
  match findFreeProcFd state currentProc with
  | none => some (-1, state)
  | some pfd =>
      if !env.allocated then none
      else
        let fullPath := env.string (state.procs currentProc).cwd ++ path
        (vfsOpen mounts currentProc fullPath mode state.vfs).map fun opened =>
          let state := { state with vfs := opened.2 }
          if opened.1 < 0 then (-1, state)
          else (pfd, state.setFd currentProc pfd opened.1)

/--
The common beginning of the other calls: the descriptor must be valid and in
use.
-/
def withFd
    {α : Type*}
    (currentProc : Nat)
    (pfd : Int)
    (state : SysState ω)
    (refused : α)
    (act : Nat → Nat → Option α) :
    Option α :=
  if ¬ PfdValid pfd then some refused
  else
    let fd := state.fdOf currentProc pfd.toNat
    if fd < 0 then some refused else act pfd.toNat fd.toNat

def sysClose
    (mounts : Nat → FsOps ω)
    (currentProc : Nat)
    (pfd : Int)
    (state : SysState ω) :
    Option (Int × SysState ω) :=
  withFd currentProc pfd state (-1, state) fun slot fd =>
    let state := state.setFd currentProc slot (-1)
    (vfsClose mounts fd state.vfs).map fun closed =>
      (closed.1, { state with vfs := closed.2 })

def sysRead
    (mounts : Nat → FsOps ω)
    (currentProc : Nat)
    (pfd num : Int)
    (state : SysState ω) :
    Option (Int × CString × SysState ω) :=
  withFd currentProc pfd state (-1, [], state) fun _ fd =>
    (vfsRead mounts fd num state.vfs).map fun result =>
      (result.1, result.2.1, { state with vfs := result.2.2 })

def sysWrite
    (mounts : Nat → FsOps ω)
    (currentProc : Nat)
    (pfd num : Int)
    (buff : CString)
    (state : SysState ω) :
    Option (Int × SysState ω) :=
  withFd currentProc pfd state (-1, state) fun _ fd =>
    (vfsWrite mounts fd num buff state.vfs).map fun result =>
      (result.1, { state with vfs := result.2 })

/-! ## Processes which make system calls -/

inductive SysOp where
  | createProcess (spec : ProcessSpec)
  | sysOpen (env : OpenEnv) (pid : Nat) (path : CString) (mode : Nat)
  | sysClose (pid : Nat) (pfd : Int)
  | sysRead (pid : Nat) (pfd num : Int)
  | sysWrite (pid : Nat) (pfd num : Int) (buff : CString)

/-- The process whose call it is. -/
def SysOp.caller : SysOp → Option Nat
  | .createProcess _ => none
  | .sysOpen _ pid _ _ => some pid
  | .sysClose pid _ => some pid
  | .sysRead pid _ _ => some pid
  | .sysWrite pid _ _ _ => some pid

namespace SysState

/-- The process exists. -/
def Present
    (state : SysState ω)
    (pid : Nat) :
    Prop :=
  pid < maxProcs ∧ (state.procs pid).present = true

/-- System calls come from processes. -/
def legal
    (state : SysState ω)
    (op : SysOp) :
    Prop :=
  ∀ pid ∈ op.caller, state.Present pid

def step
    (mounts : Nat → FsOps ω)
    (state : SysState ω) :
    SysOp → Option (SysState ω)
  | .createProcess spec =>
      some { state with procs := (createProcess spec state.procs).2 }
  | .sysOpen env pid path mode =>
      (Fs.sysOpen mounts env pid path mode state).map fun result => result.2
  | .sysClose pid pfd =>
      (Fs.sysClose mounts pid pfd state).map fun result => result.2
  | .sysRead pid pfd num =>
      (Fs.sysRead mounts pid pfd num state).map fun result => result.2.2
  | .sysWrite pid pfd num buff =>
      (Fs.sysWrite mounts pid pfd num buff state).map fun result => result.2

end SysState

/-- The system calls; at first there are no processes and no open files. -/
def sysSystem (mounts : Nat → FsOps ω) : System (SysState ω) SysOp where
  init := fun state => (∀ pid, (state.procs pid).present = false) ∧
    ∀ fd, (state.vfs.openFiles fd).node = none
  legal := SysState.legal
  step := SysState.step mounts

/-! ## Isolation -/

/-- The descriptor is in use by a process. -/
structure SysState.InUse
    (state : SysState ω)
    (pid pfd : Nat) :
    Prop where
  present : state.Present pid
  valid : pfd < fdsPerProc
  used : 0 ≤ state.fdOf pid pfd

/--
Every descriptor in use refers to an open file of its process, and no two
refer to the same one.
-/
structure Isolated (state : SysState ω) : Prop where
  refers : ∀ {pid pfd}, state.InUse pid pfd →
    state.fdOf pid pfd < numOpenFiles ∧
      (state.vfs.openFiles (state.fdOf pid pfd).toNat).node ≠ none ∧
      (state.vfs.openFiles (state.fdOf pid pfd).toNat).proc = pid
  distinct : ∀ {pid pfd pid' pfd'}, state.InUse pid pfd →
    state.InUse pid' pfd' → state.fdOf pid pfd = state.fdOf pid' pfd' →
      pid = pid' ∧ pfd = pfd'

section

variable
  {state state' : SysState ω}
  {pid pfd : Nat}

@[simp]
theorem SysState.setFd_fdOf_self
    (state : SysState ω)
    (pid pfd : Nat)
    (fd : Int) :
    (state.setFd pid pfd fd).fdOf pid pfd = fd := by
  simp [SysState.setFd, SysState.fdOf]

theorem SysState.setFd_fdOf_of_ne
    (state : SysState ω)
    {pid pfd other slot : Nat}
    (fd : Int)
    (different : ¬ (other = pid ∧ slot = pfd)) :
    (state.setFd pid pfd fd).fdOf other slot = state.fdOf other slot := by
  by_cases same : other = pid
  · subst same
    have slots : slot ≠ pfd := fun equal => different ⟨rfl, equal⟩
    simp [SysState.setFd, SysState.fdOf, slots]
  · simp [SysState.setFd, SysState.fdOf, same]

@[simp]
theorem SysState.setFd_present
    (state : SysState ω)
    (pid pfd : Nat)
    (fd : Int)
    (other : Nat) :
    (state.setFd pid pfd fd).Present other ↔ state.Present other := by
  by_cases same : other = pid
  · subst same
    simp [SysState.setFd, SysState.Present]
  · simp [SysState.setFd, SysState.Present, same]

/-- Descriptors elsewhere are in use as before. -/
theorem SysState.inUse_setFd
    {fd : Int}
    {other slot : Nat}
    (different : ¬ (other = pid ∧ slot = pfd)) :
    (state.setFd pid pfd fd).InUse other slot ↔ state.InUse other slot := by
  constructor
  · rintro ⟨present, valid, used⟩
    rw [state.setFd_present] at present
    rw [state.setFd_fdOf_of_ne fd different] at used
    exact ⟨present, valid, used⟩
  · rintro ⟨present, valid, used⟩
    refine ⟨(state.setFd_present pid pfd fd other).mpr present, valid, ?_⟩
    rwa [state.setFd_fdOf_of_ne fd different]

/-- The descriptors stay isolated if their open files stay the same. -/
theorem Isolated.restore
    (isolated : Isolated state)
    {vfs : Vfs ω}
    (same : ∀ {pid pfd}, state.InUse pid pfd →
      SameFile state.vfs vfs (state.fdOf pid pfd).toNat) :
    Isolated { state with vfs := vfs } := by
  have used {pid pfd : Nat} (inUse : SysState.InUse
      { state with vfs := vfs } pid pfd) : state.InUse pid pfd :=
    ⟨inUse.present, inUse.valid, inUse.used⟩
  constructor
  · intro pid pfd inUse
    rcases isolated.refers (used inUse) with ⟨lt, isOpen, owner⟩
    rcases same (used inUse) with ⟨node, _, proc⟩
    exact ⟨lt, by rwa [← node] at isOpen, by rwa [← proc] at owner⟩
  · intro pid pfd pid' pfd' inUse inUse'
    exact isolated.distinct (used inUse) (used inUse')

/-- Reads, writes and failed closes keep the descriptors isolated. -/
theorem Isolated.keep
    (isolated : Isolated state)
    {vfs : Vfs ω}
    (same : SameFiles state.vfs vfs) :
    Isolated { state with vfs := vfs } :=
  isolated.restore fun _ => same _

/-- A descriptor which is given up leaves the others isolated. -/
theorem Isolated.release
    (isolated : Isolated state)
    (pid pfd : Nat) :
    Isolated (state.setFd pid pfd (-1)) := by
  have used {other slot : Nat}
      (inUse : (state.setFd pid pfd (-1)).InUse other slot) :
      ¬ (other = pid ∧ slot = pfd) := by
    rintro ⟨rfl, rfl⟩
    have negative := inUse.used
    rw [state.setFd_fdOf_self] at negative
    exact absurd negative (by decide)
  constructor
  · intro other slot inUse
    have elsewhere := used inUse
    rw [SysState.inUse_setFd elsewhere] at inUse
    rw [state.setFd_fdOf_of_ne _ elsewhere]
    exact isolated.refers inUse
  · intro other slot other' slot' inUse inUse' equal
    have elsewhere := used inUse
    have elsewhere' := used inUse'
    rw [SysState.inUse_setFd elsewhere] at inUse
    rw [SysState.inUse_setFd elsewhere'] at inUse'
    rw [state.setFd_fdOf_of_ne _ elsewhere,
      state.setFd_fdOf_of_ne _ elsewhere'] at equal
    exact isolated.distinct inUse inUse' equal

/-- A close frees the open file of a descriptor which was given up. -/
theorem Isolated.close
    (isolated : Isolated state)
    {vfs : Vfs ω}
    {fd : Nat}
    (unused : ∀ {pid pfd}, state.InUse pid pfd → state.fdOf pid pfd ≠ fd)
    (others : ∀ other ≠ fd, SameFile state.vfs vfs other) :
    Isolated { state with vfs := vfs } := by
  apply isolated.restore
  intro pid pfd inUse
  have nonneg : 0 ≤ state.fdOf pid pfd := inUse.used
  have different := unused inUse
  exact others _ (by omega)

/-- A new process has no descriptors. -/
theorem Isolated.createProcess
    (isolated : Isolated state)
    (spec : ProcessSpec) :
    Isolated { state with procs := (createProcess spec state.procs).2 } := by
  rcases createProcess_cases spec state.procs with
    failed | ⟨tid, lt, absent, created⟩
  · rw [failed]
    exact isolated
  · rw [created]
    have used {pid pfd : Nat} (inUse : SysState.InUse
        { state with
          procs := Function.update state.procs tid
            (spec.start tid (state.procs tid)) } pid pfd) :
        pid ≠ tid := by
      rintro rfl
      have nonneg := inUse.used
      have valid := inUse.valid
      simp [SysState.fdOf, ProcessSpec.start, valid] at nonneg
    have old {pid pfd : Nat} (inUse : SysState.InUse
        { state with
          procs := Function.update state.procs tid
            (spec.start tid (state.procs tid)) } pid pfd) :
        state.InUse pid pfd := by
      have different := used inUse
      rcases inUse with ⟨present, valid, nonneg⟩
      rw [SysState.Present] at present
      rw [SysState.fdOf] at nonneg
      simp only [Function.update_of_ne different] at present nonneg
      exact ⟨present, valid, nonneg⟩
    constructor
    · intro pid pfd inUse
      have different := used inUse
      simp only [SysState.fdOf, Function.update_of_ne different]
      exact isolated.refers (old inUse)
    · intro pid pfd pid' pfd' inUse inUse' equal
      have different := used inUse
      have different' := used inUse'
      simp only [SysState.fdOf, Function.update_of_ne different,
        Function.update_of_ne different'] at equal
      exact isolated.distinct (old inUse) (old inUse') equal

/-- A free descriptor is given an open file which nobody refers to. -/
theorem Isolated.acquire
    (isolated : Isolated state)
    {vfs : Vfs ω}
    {fd : Nat}
    (lt : fd < numOpenFiles)
    (free : (state.vfs.openFiles fd).node = none)
    (isOpen : (vfs.openFiles fd).node ≠ none)
    (owner : (vfs.openFiles fd).proc = pid)
    (others : ∀ other ≠ fd, SameFile state.vfs vfs other) :
    Isolated (SysState.setFd { state with vfs := vfs } pid pfd fd) := by
  have unused {other slot : Nat} (inUse : state.InUse other slot) :
      state.fdOf other slot ≠ fd := by
    intro same
    have refers := (isolated.refers inUse).2.1
    rw [same, Int.toNat_natCast] at refers
    exact refers free
  have closed : Isolated { state with vfs := vfs } :=
    isolated.close unused others
  have old {other slot : Nat} (elsewhere : ¬ (other = pid ∧ slot = pfd))
      (inUse : (SysState.setFd { state with vfs := vfs } pid pfd fd).InUse
        other slot) :
      SysState.InUse { state with vfs := vfs } other slot :=
    (SysState.inUse_setFd elsewhere).mp inUse
  have apart {other slot : Nat} (elsewhere : ¬ (other = pid ∧ slot = pfd))
      (inUse : (SysState.setFd { state with vfs := vfs } pid pfd fd).InUse
        other slot) :
      (SysState.setFd { state with vfs := vfs } pid pfd fd).fdOf other slot
        ≠ fd := by
    rw [SysState.setFd_fdOf_of_ne _ _ elsewhere]
    have before := old elsewhere inUse
    exact unused ⟨before.present, before.valid, before.used⟩
  constructor
  · intro other slot inUse
    by_cases here : other = pid ∧ slot = pfd
    · rcases here with ⟨rfl, rfl⟩
      rw [SysState.setFd_fdOf_self, Int.toNat_natCast]
      exact ⟨by exact_mod_cast lt, isOpen, owner⟩
    · rw [SysState.setFd_fdOf_of_ne _ _ here]
      exact closed.refers (old here inUse)
  · intro other slot other' slot' inUse inUse' equal
    by_cases here : other = pid ∧ slot = pfd
    · by_cases here' : other' = pid ∧ slot' = pfd
      · exact ⟨here.1.trans here'.1.symm, here.2.trans here'.2.symm⟩
      · have different := apart here' inUse'
        rw [here.1, here.2, SysState.setFd_fdOf_self] at equal
        exact absurd equal.symm different
    · by_cases here' : other' = pid ∧ slot' = pfd
      · have different := apart here inUse
        rw [here'.1, here'.2, SysState.setFd_fdOf_self] at equal
        exact absurd equal different
      · rw [SysState.setFd_fdOf_of_ne _ _ here,
          SysState.setFd_fdOf_of_ne _ _ here'] at equal
        exact closed.distinct (old here inUse) (old here' inUse') equal

/-- The call is refused, or goes on with the open file of its descriptor. -/
theorem withFd_cases
    {α : Type*}
    {pfd : Int}
    {refused result : α}
    {act : Nat → Nat → Option α}
    (returned : withFd pid pfd state refused act = some result) :
    result = refused ∨ ∃ slot fd : Nat, slot < fdsPerProc ∧ pfd = slot ∧
      state.fdOf pid slot = fd ∧ act slot fd = some result := by
  rw [withFd] at returned
  split at returned
  · cases returned
    exact .inl rfl
  · rename_i valid
    rw [not_not] at valid
    simp only at returned
    split at returned
    · cases returned
      exact .inl rfl
    · rename_i nonneg
      rcases valid with ⟨lt, nonneg'⟩
      exact .inr ⟨pfd.toNat, (state.fdOf pid pfd.toNat).toNat, by omega,
        by omega, by omega, returned⟩

/-- The process refers to the open file `fd` by its descriptor `pfd`. -/
def SysState.Refers
    (state : SysState ω)
    (pid : Nat)
    (pfd : Int)
    (slot fd : Nat) :
    Prop :=
  slot < fdsPerProc ∧ pfd = slot ∧ state.fdOf pid slot = fd

theorem sysClose_cases
    {pfd ret : Int}
    (returned : Fs.sysClose mounts pid pfd state = some (ret, state')) :
    state' = state ∨ ∃ slot fd vfs, state.Refers pid pfd slot fd ∧
      vfsClose mounts fd state.vfs = some (ret, vfs) ∧
        state' = { state.setFd pid slot (-1) with vfs := vfs } := by
  rcases withFd_cases returned with
    refused | ⟨slot, fd, valid, isSlot, isFd, acted⟩
  · cases refused
    exact .inl rfl
  · rcases Option.map_eq_some_iff.mp acted with ⟨⟨ret, vfs⟩, closed, rest⟩
    cases rest
    exact .inr ⟨slot, fd, vfs, ⟨valid, isSlot, isFd⟩, closed, rfl⟩

theorem sysRead_cases
    {pfd num ret : Int}
    {bytes : CString}
    (returned : Fs.sysRead mounts pid pfd num state =
      some (ret, bytes, state')) :
    state' = state ∨ ∃ slot fd vfs, state.Refers pid pfd slot fd ∧
      vfsRead mounts fd num state.vfs = some (ret, bytes, vfs) ∧
        state' = { state with vfs := vfs } := by
  rcases withFd_cases returned with
    refused | ⟨slot, fd, valid, isSlot, isFd, acted⟩
  · cases refused
    exact .inl rfl
  · rcases Option.map_eq_some_iff.mp acted with
      ⟨⟨ret, bytes, vfs⟩, read, rest⟩
    cases rest
    exact .inr ⟨slot, fd, vfs, ⟨valid, isSlot, isFd⟩, read, rfl⟩

theorem sysWrite_cases
    {pfd num ret : Int}
    {buff : CString}
    (returned : Fs.sysWrite mounts pid pfd num buff state =
      some (ret, state')) :
    state' = state ∨ ∃ slot fd vfs, state.Refers pid pfd slot fd ∧
      vfsWrite mounts fd num buff state.vfs = some (ret, vfs) ∧
        state' = { state with vfs := vfs } := by
  rcases withFd_cases returned with
    refused | ⟨slot, fd, valid, isSlot, isFd, acted⟩
  · cases refused
    exact .inl rfl
  · rcases Option.map_eq_some_iff.mp acted with ⟨⟨ret, vfs⟩, wrote, rest⟩
    cases rest
    exact .inr ⟨slot, fd, vfs, ⟨valid, isSlot, isFd⟩, wrote, rfl⟩

theorem Isolated.sysOpen
    (isolated : Isolated state)
    {env : OpenEnv}
    {path : CString}
    {mode : Nat}
    {ret : Int}
    (returned : Fs.sysOpen mounts env pid path mode state =
      some (ret, state')) :
    Isolated state' := by
  rw [Fs.sysOpen] at returned
  split at returned
  · cases returned
    exact isolated
  · rename_i slot found
    split at returned
    · cases returned
    · rcases Option.map_eq_some_iff.mp returned with
        ⟨⟨fd, vfs⟩, opened, rest⟩
      rcases vfsOpen_cases opened with
        ⟨rfl, quiet⟩ |
          ⟨target, checked, fd, middle, _, quiet, lt, free, rfl, rfl⟩
      · rw [if_pos (show (-1 : Int) < 0 by decide)] at rest
        cases rest
        exact isolated.keep quiet.sameFiles
      · rw [if_neg (show ¬ ((fd : Int) < 0) by omega)] at rest
        cases rest
        apply isolated.acquire lt free
        · simp [Vfs.fillFile, Vfs.setFile, Vfs.setNode]
        · simp [Vfs.fillFile, Vfs.setFile, Vfs.setNode]
        · intro other different
          have same : (middle.fillFile fd target mode pid).openFiles other =
              state.vfs.openFiles other := by
            rw [← quiet.files]
            exact Function.update_of_ne different ..
          rw [SameFile, same]
          exact ⟨rfl, rfl, rfl⟩

theorem Isolated.sysClose
    (isolated : Isolated state)
    (present : state.Present pid)
    {pfd ret : Int}
    (returned : Fs.sysClose mounts pid pfd state = some (ret, state')) :
    Isolated state' := by
  rcases sysClose_cases returned with
    rfl | ⟨slot, fd, vfs, ⟨valid, _, isFd⟩, closed, rfl⟩
  · exact isolated
  · have released := isolated.release pid slot
    rcases (vfsClose_cases closed).2 with ⟨_, same⟩ | ⟨_, _, others⟩
    · exact released.keep same
    · refine released.close ?_ others
      -- another descriptor of the closed file would have been a second one
      intro other slot' inUse same
      have elsewhere : ¬ (other = pid ∧ slot' = slot) := by
        rintro ⟨rfl, rfl⟩
        rw [SysState.setFd_fdOf_self] at same
        omega
      rw [SysState.inUse_setFd elsewhere] at inUse
      rw [SysState.setFd_fdOf_of_ne _ _ elsewhere] at same
      have here : state.InUse pid slot := ⟨present, valid, by omega⟩
      exact elsewhere (isolated.distinct inUse here (same.trans isFd.symm))

theorem Isolated.step
    (isolated : Isolated state)
    {op : SysOp}
    (last : (sysSystem mounts).Step state op state') :
    Isolated state' := by
  rcases last with ⟨legal, stepped⟩
  replace stepped : state.step mounts op = some state' := stepped
  cases op with
  | createProcess spec =>
      cases stepped
      exact isolated.createProcess spec
  | sysOpen env pid path mode =>
      rcases Option.map_eq_some_iff.mp stepped with
        ⟨⟨ret, after⟩, returned, rfl⟩
      exact isolated.sysOpen returned
  | sysClose pid pfd =>
      rcases Option.map_eq_some_iff.mp stepped with
        ⟨⟨ret, after⟩, returned, rfl⟩
      exact isolated.sysClose (legal pid rfl) returned
  | sysRead pid pfd num =>
      rcases Option.map_eq_some_iff.mp stepped with
        ⟨⟨ret, bytes, after⟩, returned, rfl⟩
      rcases sysRead_cases returned with rfl | ⟨_, _, vfs, _, read, rfl⟩
      · exact isolated
      · exact isolated.keep (vfsRead_spec read).2
  | sysWrite pid pfd num buff =>
      rcases Option.map_eq_some_iff.mp stepped with
        ⟨⟨ret, after⟩, returned, rfl⟩
      rcases sysWrite_cases returned with rfl | ⟨_, _, vfs, _, wrote, rfl⟩
      · exact isolated
      · exact isolated.keep (vfsWrite_spec wrote).2

theorem isolated_of_reachable
    (reachable : (sysSystem mounts).Reachable state) : Isolated state := by
  apply reachable.invariant
  · intro start initial
    have absent {pid pfd : Nat} (inUse : start.InUse pid pfd) : False := by
      have present := inUse.present.2
      rw [initial.1 pid] at present
      cases present
    exact ⟨fun inUse => (absent inUse).elim,
      fun inUse _ => (absent inUse).elim⟩
  · exact fun _ _ _ isolated last => isolated.step last

/-! ## Which open files a call reaches -/

/-- The open file which is handed to the file system. -/
def FsCall.file : FsCall → Option Nat
  | .fClose fd _ _ => some fd
  | .fSeek fd _ _ => some fd
  | .fRead fd _ _ => some fd
  | .fWrite fd _ _ => some fd
  | _ => none

/-- Entries of other files are as before, and only this file was handed on. -/
structure OnlyFile
    (vfs vfs' : Vfs ω)
    (fd : Nat) :
    Prop where
  others : ∀ other ≠ fd, vfs'.openFiles other = vfs.openFiles other
  calls : ∃ calls, vfs'.calls = vfs.calls ++ calls ∧
    ∀ call ∈ calls, ∀ other ∈ call.file, other = fd

theorem OnlyFile.refl
    (vfs : Vfs ω)
    (fd : Nat) :
    OnlyFile vfs vfs fd :=
  ⟨fun _ _ => rfl, [], by simp, by simp⟩

theorem OnlyFile.fileReplied
    (vfs : Vfs ω)
    (fd node : Nat)
    (reply : FileReply ω)
    {call : FsCall}
    (isFile : call.file = some fd) :
    OnlyFile vfs (vfs.fileReplied fd node reply call) fd := by
  constructor
  · intro other different
    exact Function.update_of_ne different ..
  · refine ⟨[call], rfl, ?_⟩
    intro call' member other isOther
    cases List.mem_singleton.mp member
    rw [isFile] at isOther
    exact (Option.some.inj isOther).symm

theorem vfsRead_onlyFile
    {fd : Nat}
    {nbytes ret : Int}
    {bytes : CString}
    {vfs after : Vfs ω}
    (returned : vfsRead mounts fd nbytes vfs = some (ret, bytes, after)) :
    OnlyFile vfs after fd := by
  rcases vfsRead_cases returned with rfl | ⟨node, reply, _, rfl⟩
  · exact .refl _ _
  · exact .fileReplied _ _ _ _ rfl

theorem vfsWrite_onlyFile
    {fd : Nat}
    {nbytes ret : Int}
    {kbuffer : CString}
    {vfs after : Vfs ω}
    (returned : vfsWrite mounts fd nbytes kbuffer vfs = some (ret, after)) :
    OnlyFile vfs after fd := by
  rcases vfsWrite_cases returned with rfl | ⟨node, reply, _, rfl⟩
  · exact .refl _ _
  · exact .fileReplied _ _ _ _ rfl

theorem vfsClose_onlyFile
    {fd : Nat}
    {ret : Int}
    {vfs after : Vfs ω}
    (returned : vfsClose mounts fd vfs = some (ret, after)) :
    OnlyFile vfs after fd := by
  rcases withFile_cases returned with closed | ⟨mount, node, _, _, acted⟩
  · cases closed
    exact .refl _ _
  · simp only at acted
    split at acted
    · cases acted
      exact .fileReplied _ _ _ _ rfl
    · cases acted
      refine ⟨?_, [_], rfl, ?_⟩
      · intro other different
        exact (Function.update_of_ne different ..).trans
          (Function.update_of_ne different ..)
      · intro call member other isFile
        cases List.mem_singleton.mp member
        exact (Option.some.inj isFile).symm

/-- The descriptor through which a process reads, writes or closes a file. -/
def SysOp.uses : SysOp → Option (Nat × Int)
  | .sysClose pid pfd => some (pid, pfd)
  | .sysRead pid pfd _ => some (pid, pfd)
  | .sysWrite pid pfd _ _ => some (pid, pfd)
  | _ => none

/-- Nothing happens, or only the open file of the descriptor is reached. -/
theorem onlyFile_step
    {op : SysOp}
    {pfd : Int}
    (last : (sysSystem mounts).Step state op state')
    (uses : op.uses = some (pid, pfd)) :
    state' = state ∨ ∃ slot fd : Nat, state.Refers pid pfd slot fd ∧
      OnlyFile state.vfs state'.vfs fd := by
  have stepped : state.step mounts op = some state' := last.2
  cases op with
  | createProcess spec => cases uses
  | sysOpen env pid' path mode => cases uses
  | sysClose pid' pfd' =>
      cases uses
      rcases Option.map_eq_some_iff.mp stepped with
        ⟨⟨ret, after⟩, returned, rfl⟩
      rcases sysClose_cases returned with
        same | ⟨slot, fd, vfs, refers, closed, rfl⟩
      · exact .inl same
      · exact .inr ⟨slot, fd, refers, vfsClose_onlyFile closed⟩
  | sysRead pid' pfd' num =>
      cases uses
      rcases Option.map_eq_some_iff.mp stepped with
        ⟨⟨ret, bytes, after⟩, returned, rfl⟩
      rcases sysRead_cases returned with
        same | ⟨slot, fd, vfs, refers, read, rfl⟩
      · exact .inl same
      · exact .inr ⟨slot, fd, refers, vfsRead_onlyFile read⟩
  | sysWrite pid' pfd' num buff =>
      cases uses
      rcases Option.map_eq_some_iff.mp stepped with
        ⟨⟨ret, after⟩, returned, rfl⟩
      rcases sysWrite_cases returned with
        same | ⟨slot, fd, vfs, refers, wrote, rfl⟩
      · exact .inl same
      · exact .inr ⟨slot, fd, refers, vfsWrite_onlyFile wrote⟩

theorem SysOp.caller_of_uses
    {op : SysOp}
    {pfd : Int}
    (uses : op.uses = some (pid, pfd)) :
    pid ∈ op.caller := by
  cases op <;> cases uses <;> rfl

end

/-! ## Two processes with the same file -/

/-- No processes, and nothing open. -/
def bootSys : SysState Unit :=
  ⟨fun _ => .blank, rootOnly⟩

theorem bootSys_init : (sysSystem fun _ => plainFs).init bootSys :=
  ⟨fun _ => rfl, fun _ => rfl⟩

/-- A process of the kernel; all its strings are the path `/`. -/
def plainSpec : ProcessSpec :=
  ⟨[], 0, 0, 4096, false, 0, 0, 0, 0⟩

def slashEnv : OpenEnv :=
  ⟨fun _ => [47], true⟩

instance
    (state : SysState ω)
    (op : SysOp) :
    Decidable ((sysSystem mounts).legal state op) :=
  inferInstanceAs (Decidable (∀ pid ∈ op.caller,
    pid < maxProcs ∧ (state.procs pid).present = true))

/-- Two processes have opened `/a` for reading. -/
def sharedSys : SysState Unit :=
  ((sysSystem fun _ => plainFs).replay bootSys
    [.createProcess plainSpec, .createProcess plainSpec,
      .sysOpen slashEnv 0 [97] ofRead,
      .sysOpen slashEnv 1 [97] ofRead]).get (by decide +kernel)

theorem sharedSys_inUse
    (pid : Nat)
    (lt : pid < 2) :
    sharedSys.InUse pid 0 := by
  have facts : ∀ pid < 2, pid < maxProcs ∧
      (sharedSys.procs pid).present = true ∧ 0 ≤ sharedSys.fdOf pid 0 := by
    decide +kernel
  rcases facts pid lt with ⟨bound, present, used⟩
  exact ⟨⟨bound, present⟩, by decide, used⟩

end ForsKernel.Fs
