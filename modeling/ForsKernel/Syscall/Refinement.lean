import ForsKernel.Syscall.Dispatch

/-!
# The file system's view of the kernel

The scheduler moves registers in and out of the process table, which the VFS
shares with it.  As far as the VFS is concerned nothing happens then: the
kernel refines the system of processes which make system calls, up to the
saved registers.
-/

namespace ForsKernel.Syscall

open ForsKernel.Fs
open ForsKernel.Lib.Transition
open ForsKernel.Proc

variable
  {ω : Type*}
  {mounts : Nat → FsOps ω}

/-! ## Process tables without registers -/

/-- The process, less its registers. -/
def eraseCtx (proc : Process) : Process :=
  { proc with ctx := .zero }

/-- The state, less the registers of all processes. -/
def erase (state : SysState ω) : SysState ω :=
  { state with procs := fun pid => eraseCtx (state.procs pid) }

/-- The states differ in saved registers only. -/
def SameTables
    (state : KernelState ω)
    (sys : SysState ω) :
    Prop :=
  erase sys = erase state.sys

section

variable
  {state state' : SysState ω}
  {pid pfd : Nat}

theorem erase_vfs (state : SysState ω) : (erase state).vfs = state.vfs :=
  rfl

/-- Descriptors can be set before or after the registers are erased. -/
theorem erase_setFd
    (state : SysState ω)
    (pid pfd : Nat)
    (fd : Int) :
    erase (state.setFd pid pfd fd) = (erase state).setFd pid pfd fd := by
  rw [erase, SysState.setFd, SysState.setFd, erase]
  congr 1
  funext other
  by_cases same : other = pid
  · subst same
    simp [eraseCtx]
  · simp [same]

theorem erase_createProcess
    (spec : ProcessSpec)
    (state : SysState ω) :
    erase { state with procs := (createProcess spec state.procs).2 } =
      erase { erase state with
        procs := (createProcess spec (erase state).procs).2 } := by
  have free : findFreeTid (erase state).procs = findFreeTid state.procs := by
    have from_ (fuel tid : Nat) : findFreeTidFrom (erase state).procs fuel
        tid = findFreeTidFrom state.procs fuel tid := by
      induction fuel generalizing tid with
      | zero => rfl
      | succ fuel induction =>
          rw [findFreeTidFrom, findFreeTidFrom, induction]
          rfl
    exact from_ maxProcs 0
  rw [createProcess, createProcess, free]
  split
  · rfl
  · rw [erase, erase]
    congr 1
    funext other
    by_cases same : other = (findFreeTid state.procs).toNat
    · subst same
      simp [eraseCtx, ProcessSpec.start, erase]
    · simp [same, erase, eraseCtx]

/-- A call which goes through a descriptor does not look at registers. -/
theorem withFd_erase
    {α : Type*}
    (pid : Nat)
    (pfd : Int)
    (state : SysState ω)
    (refused : α)
    (act : Nat → Nat → Option α) :
    withFd pid pfd (erase state) refused act =
      withFd pid pfd state refused act :=
  rfl

theorem withFd_map
    {α β : Type*}
    (f : α → β)
    (pid : Nat)
    (pfd : Int)
    (state : SysState ω)
    (refused : α)
    (act : Nat → Nat → Option α) :
    (withFd pid pfd state refused act).map f =
      withFd pid pfd state (f refused) fun slot fd => (act slot fd).map f := by
  rw [withFd, withFd]
  split
  · rfl
  · simp only
    split <;> rfl

/-- No system call depends on saved registers, or changes them. -/
theorem step_erase
    (state : SysState ω)
    (op : SysOp) :
    (state.step mounts op).map erase =
      ((erase state).step mounts op).map erase := by
  cases op with
  | createProcess spec =>
      exact congrArg some (erase_createProcess spec state)
  | sysOpen env pid path mode =>
      rw [SysState.step, SysState.step, Option.map_map, Option.map_map,
        sysOpen, sysOpen]
      rw [show findFreeProcFd (erase state) pid =
        findFreeProcFd state pid from rfl]
      cases findFreeProcFd state pid with
      | none => rfl
      | some pfd =>
          simp only
          split
          · rfl
          · rw [Option.map_map, Option.map_map]
            show Option.map _ (vfsOpen mounts pid _ mode state.vfs) =
              Option.map _ (vfsOpen mounts pid _ mode state.vfs)
            apply congrArg (Option.map · _)
            funext opened
            simp only [Function.comp]
            split
            · rfl
            · rw [erase_setFd, erase_setFd]
              rfl
  | sysClose pid pfd =>
      simp only [SysState.step, sysClose, withFd_map, withFd_erase,
        Option.map_map]
      congr 1
      funext slot fd
      show Option.map _ (vfsClose mounts fd state.vfs) =
        Option.map _ (vfsClose mounts fd state.vfs)
      apply congrArg (Option.map · _)
      funext closed
      have set := erase_setFd state pid slot (-1)
      have procs := congrArg SysState.procs set
      have again := congrArg SysState.procs
        (erase_setFd (erase state) pid slot (-1))
      simp only [Function.comp, erase] at procs again ⊢
      rw [procs, again]
      rfl
  | sysRead pid pfd num =>
      simp only [SysState.step, sysRead, withFd_map, withFd_erase,
        Option.map_map]
      congr 1
  | sysWrite pid pfd num buff =>
      simp only [SysState.step, sysWrite, withFd_map, withFd_erase,
        Option.map_map]
      congr 1

/-- Steps from states which differ in registers end in such states. -/
theorem step_of_erase
    {model : SysState ω}
    {op : SysOp}
    (same : erase model = erase state)
    (stepped : state.step mounts op = some state') :
    ∃ model', model.step mounts op = some model' ∧
      erase model' = erase state' := by
  have moved : (model.step mounts op).map erase = some (erase state') := by
    rw [step_erase, same, ← step_erase, stepped]
    rfl
  rcases Option.map_eq_some_iff.mp moved with ⟨model', made, equal⟩
  exact ⟨model', made, equal⟩

/-! ## What a system call does to the process table -/

/-- Only the descriptors of this process may have changed. -/
def OnlyFdmap
    (state state' : SysState ω)
    (pid : Nat) :
    Prop :=
  state'.procs = Function.update state.procs pid
    { state.procs pid with fdmap := (state'.procs pid).fdmap }

theorem OnlyFdmap.of_procs (same : state'.procs = state.procs) :
    OnlyFdmap state state' pid := by
  rw [OnlyFdmap, same]
  exact (Function.update_eq_self pid state.procs).symm

theorem OnlyFdmap.setFd
    {fd : Int}
    (procs : state'.procs = (state.setFd pid pfd fd).procs) :
    OnlyFdmap state state' pid := by
  rw [OnlyFdmap, procs]
  simp [SysState.setFd]

/-- A system call changes no more than the descriptors of its caller. -/
theorem onlyFdmap_step
    {op : SysOp}
    (caller : op.caller = some pid)
    (stepped : state.step mounts op = some state') :
    OnlyFdmap state state' pid := by
  cases op with
  | createProcess spec => cases caller
  | sysOpen env pid' path mode =>
      cases caller
      rcases Option.map_eq_some_iff.mp stepped with ⟨⟨ret, _⟩, called, rfl⟩
      rw [sysOpen] at called
      split at called
      · cases called
        exact .of_procs rfl
      · split at called
        · cases called
        · rcases Option.map_eq_some_iff.mp called with
            ⟨⟨fd, vfs⟩, _, rest⟩
          split at rest
          · cases rest
            exact .of_procs rfl
          · cases rest
            exact .setFd rfl
  | sysClose pid' pfd =>
      cases caller
      rcases Option.map_eq_some_iff.mp stepped with ⟨⟨ret, _⟩, called, rfl⟩
      rcases sysClose_cases called with rfl | ⟨slot, fd, vfs, _, _, rfl⟩
      · exact .of_procs rfl
      · exact .setFd rfl
  | sysRead pid' pfd num =>
      cases caller
      rcases Option.map_eq_some_iff.mp stepped with
        ⟨⟨ret, bytes, _⟩, called, rfl⟩
      rcases sysRead_cases called with rfl | ⟨_, _, _, _, _, rfl⟩
      · exact .of_procs rfl
      · exact .of_procs rfl
  | sysWrite pid' pfd num buff =>
      cases caller
      rcases Option.map_eq_some_iff.mp stepped with ⟨⟨ret, _⟩, called, rfl⟩
      rcases sysWrite_cases called with rfl | ⟨_, _, _, _, _, rfl⟩
      · exact .of_procs rfl
      · exact .of_procs rfl

/-- The registers ask for a call which is then made, or for none at all. -/
theorem syscallDispatch_cases
    {memory : CallerMemory}
    {vec p1 p2 p3 : Nat}
    {ret : Int}
    {bytes : CString}
    (called : syscallDispatch mounts memory pid vec p1 p2 p3 state =
      some (ret, bytes, state')) :
    (decoded memory pid vec p1 p2 p3 = none ∧ state' = state) ∨
      ∃ op, decoded memory pid vec p1 p2 p3 = some op ∧
        op.caller = some pid ∧ state.step mounts op = some state' := by
  unfold syscallDispatch at called
  split at called
  · rcases Option.map_eq_some_iff.mp called with ⟨result, made, same⟩
    cases same
    exact .inr ⟨_, rfl, rfl, Option.map_eq_some_iff.mpr ⟨_, made, rfl⟩⟩
  · rcases Option.map_eq_some_iff.mp called with ⟨result, made, same⟩
    cases same
    exact .inr ⟨_, rfl, rfl, Option.map_eq_some_iff.mpr ⟨_, made, rfl⟩⟩
  · exact .inr ⟨_, rfl, rfl, Option.map_eq_some_iff.mpr ⟨_, called, rfl⟩⟩
  · rcases Option.map_eq_some_iff.mp called with ⟨result, made, same⟩
    cases same
    exact .inr ⟨_, rfl, rfl, Option.map_eq_some_iff.mpr ⟨_, made, rfl⟩⟩
  · rename_i other0 other1 other2 other3
    cases called
    refine .inl ⟨?_, rfl⟩
    rw [decoded]
    · exact other0
    · exact other1
    · exact other2
    · exact other3

end

/-! ## Interrupts -/

section

variable {ctx : RegisterCtx}

/-- An interrupt which is no system call leaves the tables alone. -/
theorem sameTables_of_quiet
    {history : History}
    {reply : SyscallReply}
    {ret : RegisterCtx}
    {kernel : Kernel}
    (inv : SwitchInv history)
    (quiet : ¬ IsCall ctx)
    (returned : interruptDispatch reply ctx history.kernel = some (ret, kernel))
    (pid : Nat) :
    eraseCtx (kernel.sched.procs pid) =
      eraseCtx (history.kernel.sched.procs pid) := by
  rw [interruptDispatch] at returned
  split at returned
  · rcases timerInterrupt_cases inv.sched returned with
      ⟨sched, _, procs, ⟨_, same⟩ | ⟨_, _, same, _⟩⟩
    · rw [same, procs]
    · rw [same]
      split
      · by_cases here : pid = history.kernel.sched.currentProc.toNat
        · subst here
          simp [Sched.saveCtx, eraseCtx, procs]
        · rw [Sched.saveCtx_procs_of_ne _ _ here, procs]
      · rw [procs]
  · cases returned
    rfl
  · cases returned
    rfl
  · cases returned
    rfl
  · rename_i isCall
    have prints : ctx.rax = 100 := by
      by_contra other
      exact quiet ⟨isCall, other⟩
    rw [syscallInterrupt, if_pos prints] at returned
    cases returned
    rfl
  · cases returned

/-- After a system call the caller has the descriptors of the reply. -/
theorem interruptDispatch_call
    {reply : SyscallReply}
    (kernel : Kernel)
    (isCall : IsCall ctx)
    (runs : 0 ≤ kernel.sched.currentProc) :
    interruptDispatch reply ctx kernel =
      some ({ ctx with rax := reply.sysret },
        { kernel with
          sched := kernel.sched.setFdmap kernel.sched.currentProc.toNat
            reply.fdmap }) := by
  have dispatched : interruptDispatch reply ctx kernel =
      some (syscallInterrupt reply ctx kernel) := by
    simp only [interruptDispatch, isCall.1]
  rw [dispatched, syscallInterrupt, if_neg isCall.2, if_neg (by omega)]

end

/-- The process which makes a system call exists. -/
theorem runner_present
    {state : KernelState ω}
    (inv : SwitchInv state.history)
    (runs : state.sched.currentProc ≠ -1) :
    0 ≤ state.sched.currentProc ∧ state.sys.Present state.runner := by
  rcases inv.sched.running with none_runs | ⟨nonneg, lt, present⟩
  · exact (runs none_runs).elim
  · refine ⟨nonneg, ?_, present⟩
    show state.sched.currentProc.toNat < maxProcs
    have bound : state.sched.currentProc < maxProcs := lt
    omega

/-- An event in which no process is created and no call is made. -/
theorem sameTables_of_procs
    {state state' : KernelState ω}
    {model : SysState ω}
    (same : SameTables state model)
    (vfs : state'.vfs = state.vfs)
    (procs : ∀ pid, eraseCtx (state'.sched.procs pid) =
      eraseCtx (state.sched.procs pid)) :
    SameTables state' model := by
  have equal : erase state'.sys = erase state.sys := by
    rw [erase, erase, KernelState.sys, KernelState.sys, vfs]
    congr 1
    funext pid
    exact procs pid
  exact same.trans equal.symm

/-- The kernel, as the VFS sees it, is driven by system calls alone. -/
theorem refinesCalls : (kernelSystem mounts).Simulates (sysSystem mounts)
    KernelState.sysView SameTables := by
  constructor
  · rintro start ⟨booted, closed⟩
    refine ⟨start.sys, ⟨?_, closed⟩, rfl⟩
    intro pid
    show (start.history.kernel.sched.procs pid).present = false
    rw [booted]
    rfl
  · rintro source event target model reachable same ⟨legal, stepped⟩
    have inv := switchInv_of_kernel reachable
    rcases Option.bind_eq_some_iff.mp stepped with
      ⟨⟨op, vfs⟩, viewed, moved⟩
    rcases Option.map_eq_some_iff.mp moved with ⟨history, made, rfl⟩
    cases event with
    | createProcess spec =>
        cases viewed
        cases made
        have created : source.sys.step mounts (.createProcess spec) =
          some (KernelState.sys
            ⟨source.history.create spec, source.vfs⟩) := rfl
        rcases step_of_erase same created with ⟨model', here, same'⟩
        refine ⟨model', .single ⟨?_, here⟩, same'⟩
        intro pid none_calls
        cases none_calls
    | enqueueProc tid =>
        cases viewed
        cases made
        exact ⟨model, .nil model, sameTables_of_procs same rfl fun _ => rfl⟩
    | startRunning =>
        cases viewed
        cases made
        exact ⟨model, .nil model, sameTables_of_procs same rfl fun _ => rfl⟩
    | interrupt memory ctx =>
        rcases Option.map_eq_some_iff.mp viewed with
          ⟨⟨reply, vfs'⟩, answered, isOp⟩
        cases isOp
        rcases Option.map_eq_some_iff.mp made with
          ⟨⟨ret, kernel⟩, returned, rfl⟩
        rw [KernelState.answer] at answered
        rw [KernelState.sysView]
        by_cases isCall : IsCall ctx
        · rw [if_pos isCall] at answered ⊢
          rcases Option.map_eq_some_iff.mp answered with
            ⟨⟨value, bytes, after⟩, called, result⟩
          cases result
          rcases runner_present inv (legal isCall) with ⟨runs, present⟩
          rw [interruptDispatch_call _ isCall runs] at returned
          cases returned
          rcases syscallDispatch_cases called with
            ⟨unknown, rfl⟩ | ⟨op, known, caller, stepped'⟩
          · rw [unknown]
            refine ⟨model, .nil model, sameTables_of_procs same rfl ?_⟩
            intro pid
            exact congrArg eraseCtx (congrFun
              (Function.update_eq_self source.runner source.sched.procs) pid)
          · rw [known]
            rcases step_of_erase same stepped' with ⟨model', here, same'⟩
            refine ⟨model', .single ⟨?_, here⟩, same'.trans ?_⟩
            · intro pid isCaller
              rw [caller] at isCaller
              cases isCaller
              have there : (erase source.sys).Present source.runner := present
              rw [← same] at there
              exact there
            · have procs := onlyFdmap_step caller stepped'
              exact congrArg erase
                (congrArg (SysState.mk · after.vfs) procs)
        · rw [if_neg isCall] at answered ⊢
          cases answered
          exact ⟨model, .nil model, sameTables_of_procs same rfl
            (sameTables_of_quiet inv isCall returned)⟩

/-- Memory with the working directory at 0 and the path `a` elsewhere. -/
def pathMemory : CallerMemory where
  string := fun address => if address = 0 then [47] else [97]
  allocated := true
  bytes := fun _ => []

/-- The registers of a process which opens the path at 1 for reading. -/
def openCall : RegisterCtx :=
  { RegisterCtx.zero with vector := 0xf0, rsi := 1, rbx := ofRead }

def bootKernel : KernelState Unit :=
  ⟨.boot, rootOnly⟩

theorem bootKernel_init : (kernelSystem fun _ => plainFs).init bootKernel :=
  ⟨rfl, fun _ => rfl⟩

/-- The first process runs and opens its file. -/
def firstOpens : List KernelEvent :=
  [.createProcess plainSpec, .createProcess plainSpec, .enqueueProc 0,
    .enqueueProc 1, .startRunning, .interrupt pathMemory (tickAt 0),
    .interrupt pathMemory openCall]

/-- The second process gets its turn and opens the same file. -/
def secondOpens : List KernelEvent :=
  [.interrupt pathMemory (tickAt 0x1234), .interrupt pathMemory openCall]

instance (state : KernelState ω) :
    (event : KernelEvent) → Decidable ((kernelSystem mounts).legal state event)
  | .createProcess _ => inferInstanceAs (Decidable True)
  | .enqueueProc tid =>
      inferInstanceAs (Decidable (state.sched.Exists tid))
  | .startRunning => inferInstanceAs (Decidable True)
  | .interrupt _ ctx => inferInstanceAs
      (Decidable (IsCall ctx → state.sched.currentProc ≠ -1))

/-- The kernel after both of them. -/
def bothOpened : KernelState Unit :=
  ((kernelSystem fun _ => plainFs).replay bootKernel
    (firstOpens ++ secondOpens)).get (by decide +kernel)

end ForsKernel.Syscall
