import ForsKernel.Lib.Simulation
import ForsKernel.Proc.ContextSwitch
import ForsKernel.Fs.Descriptors

/-!
# System calls of the whole kernel

`syscall_dispatch` turns the registers of a caller into one of the four system
calls, and `interrupt_dispatch` puts what it returns into the caller's `rax`.
Here the scheduler and the VFS are parts of one kernel: processes are created,
queued and interrupted in any order, and an interrupt with the vector of
system calls is answered by the VFS.
-/

namespace ForsKernel.Syscall

open ForsKernel.Fs
open ForsKernel.Lib.Transition
open ForsKernel.Proc

variable
  {ω : Type*}
  {mounts : Nat → FsOps ω}

/-! ## Registers as arguments -/

/-- A register as a `long`. -/
def longOfWord (word : Nat) : Int :=
  (BitVec.ofNat 64 word).toInt

/-- A `long long` in a register. -/
def wordOfLong (value : Int) : Nat :=
  (BitVec.ofInt 64 value).toNat

/-- A register as an `of_mode_t`. -/
def modeOfWord (word : Nat) : Nat :=
  (BitVec.ofNat 32 word).toNat

/-- The strings and the bytes which stand at an address. -/
structure CallerMemory extends OpenEnv where
  bytes : Nat → CString

/--
`syscall_dispatch`, which also returns what a read stores at `p_1`.  Any other
`vec` fails.
-/
def syscallDispatch
    (mounts : Nat → FsOps ω)
    (memory : CallerMemory)
    (currentProc vec p1 p2 p3 : Nat)
    (state : SysState ω) :
    Option (Int × CString × SysState ω) :=
  match vec with
  | 0 =>
      (sysOpen mounts memory.toOpenEnv currentProc (memory.string p1)
        (modeOfWord p2) state).map fun result => (result.1, [], result.2)
  | 1 =>
      (sysClose mounts currentProc (longOfWord p2) state).map fun result =>
        (result.1, [], result.2)
  | 2 => sysRead mounts currentProc (longOfWord p2) (longOfWord p3) state
  | 3 =>
      (sysWrite mounts currentProc (longOfWord p2) (longOfWord p3)
        (memory.bytes p1) state).map fun result => (result.1, [], result.2)
  | _ => some (-1, [], state)

/-- The system call which the registers ask for. -/
def decoded
    (memory : CallerMemory)
    (pid vec p1 p2 p3 : Nat) :
    Option SysOp :=
  match vec with
  | 0 => some (.sysOpen memory.toOpenEnv pid (memory.string p1)
      (modeOfWord p2))
  | 1 => some (.sysClose pid (longOfWord p2))
  | 2 => some (.sysRead pid (longOfWord p2) (longOfWord p3))
  | 3 => some (.sysWrite pid (longOfWord p2) (longOfWord p3)
      (memory.bytes p1))
  | _ => none

/-! ## The kernel -/

/-- The scheduler with its history, and the VFS. -/
structure KernelState (ω : Type*) where
  history : History
  vfs : Vfs ω

inductive KernelEvent where
  | createProcess (spec : ProcessSpec)
  | enqueueProc (tid : Int)
  | startRunning
  | interrupt (memory : CallerMemory) (ctx : RegisterCtx)

/-- The interrupt calls `syscall_dispatch`; call 100 only prints. -/
def IsCall (ctx : RegisterCtx) : Prop :=
  ctx.vector = 0xf0 ∧ ctx.rax ≠ 100

instance (ctx : RegisterCtx) : Decidable (IsCall ctx) :=
  inferInstanceAs (Decidable (_ ∧ _))

namespace KernelState

def sched (state : KernelState ω) : Sched :=
  state.history.kernel.sched

/-- What the VFS works on: the process table and its own tables. -/
def sys (state : KernelState ω) : SysState ω :=
  ⟨state.sched.procs, state.vfs⟩

/-- The process which runs, if there is one. -/
def runner (state : KernelState ω) : Nat :=
  state.sched.currentProc.toNat

/-- What the interrupt gets from the VFS. -/
def answer
    (mounts : Nat → FsOps ω)
    (state : KernelState ω)
    (memory : CallerMemory)
    (ctx : RegisterCtx) :
    Option (SyscallReply × Vfs ω) :=
  if IsCall ctx then
    (syscallDispatch mounts memory state.runner ctx.rax ctx.rsi ctx.rbx
      ctx.rcx state.sys).map fun result =>
        (⟨wordOfLong result.1, (result.2.2.procs state.runner).fdmap⟩,
          result.2.2.vfs)
  else some (noReply, state.vfs)

/-- What the event is for the scheduler, and the VFS behind it. -/
def scheduled
    (mounts : Nat → FsOps ω)
    (state : KernelState ω) :
    KernelEvent → Option (KernelOp × Vfs ω)
  | .createProcess spec => some (.createProcess spec, state.vfs)
  | .enqueueProc tid => some (.enqueueProc tid, state.vfs)
  | .startRunning => some (.startRunning, state.vfs)
  | .interrupt memory ctx =>
      (state.answer mounts memory ctx).map fun answered =>
        (.interrupt answered.1 ctx, answered.2)

/-- Only processes are queued, and only processes make system calls. -/
def legal (state : KernelState ω) : KernelEvent → Prop
  | .enqueueProc tid => state.sched.Exists tid
  | .interrupt _ ctx => IsCall ctx → state.sched.currentProc ≠ -1
  | _ => True

def step
    (mounts : Nat → FsOps ω)
    (state : KernelState ω)
    (event : KernelEvent) :
    Option (KernelState ω) :=
  (state.scheduled mounts event).bind fun result =>
    (state.history.step result.1).map fun history => ⟨history, result.2⟩

/-- Whether the event is a system call, and of which process. -/
def caller (state : KernelState ω) : KernelEvent → Option Nat
  | .interrupt _ ctx => if IsCall ctx then some state.runner else none
  | _ => none

/-- What the scheduler sees. -/
def schedView
    (mounts : Nat → FsOps ω)
    (state : KernelState ω)
    (event : KernelEvent) :
    List KernelOp :=
  ((state.scheduled mounts event).map Prod.fst).toList

/-- What the VFS sees. -/
def sysView (state : KernelState ω) : KernelEvent → List SysOp
  | .createProcess spec => [.createProcess spec]
  | .interrupt memory ctx =>
      if IsCall ctx then
        (decoded memory state.runner ctx.rax ctx.rsi ctx.rbx ctx.rcx).toList
      else []
  | _ => []

end KernelState

/-- The whole kernel; at boot nothing runs and nothing is open. -/
def kernelSystem (mounts : Nat → FsOps ω) :
    System (KernelState ω) KernelEvent where
  init := fun state => state.history = .boot ∧
    ∀ fd, (state.vfs.openFiles fd).node = none
  legal := KernelState.legal
  step := KernelState.step mounts

/-! ## The scheduler's view -/

theorem schedules : (kernelSystem mounts).Simulates switchSystem
    (KernelState.schedView mounts)
    fun state history => history = state.history := by
  constructor
  · rintro start ⟨booted, _⟩
    exact ⟨start.history, booted, rfl⟩
  · rintro source event target _ - rfl ⟨legal, stepped⟩
    rcases Option.bind_eq_some_iff.mp stepped with
      ⟨⟨op, vfs⟩, viewed, moved⟩
    rcases Option.map_eq_some_iff.mp moved with ⟨history, made, rfl⟩
    refine ⟨history, ?_, rfl⟩
    rw [KernelState.schedView, viewed]
    refine .single ⟨?_, made⟩
    cases event with
    | createProcess spec =>
        cases viewed
        trivial
    | enqueueProc tid =>
        cases viewed
        exact legal
    | startRunning =>
        cases viewed
        trivial
    | interrupt memory ctx =>
        rcases Option.map_eq_some_iff.mp viewed with ⟨_, _, same⟩
        cases same
        trivial

/-- The process table agrees with the history, in the whole kernel too. -/
theorem switchInv_of_kernel
    {state : KernelState ω}
    (reachable : (kernelSystem mounts).Reachable state) :
    SwitchInv state.history := by
  rcases schedules.reachable reachable with ⟨_, here, rfl⟩
  exact switchInv_of_reachable here

end ForsKernel.Syscall
