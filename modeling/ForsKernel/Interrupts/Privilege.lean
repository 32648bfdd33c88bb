import ForsKernel.Interrupts.Gdt
import ForsKernel.Proc.ContextSwitch

/-!
# Privileges of processes

The processor runs what `interrupt_dispatch` returned until the next interrupt.
A user program may meanwhile do with its registers what the processor lets it
do, load selectors included, and the kernel's own code may be interrupted as
well before it has disabled interrupts.  Whatever is saved and resumed in this
way, a process keeps the privileges with which it was created.
-/

namespace ForsKernel.Interrupts

open ForsKernel.Lib.Transition
open ForsKernel.Proc

/-! ## The processor -/

/-- The privilege which the code needs for ports and for its interrupts. -/
def iopl (ctx : RegisterCtx) : Nat :=
  ctx.rflags / 2 ^ 12 % 4

def interruptible (ctx : RegisterCtx) : Bool :=
  ctx.rflags.testBit 9

/--
What a program below the highest privilege can make of the registers which it
was given.  It may change its flag for interrupts with enough privilege only.
-/
def UserRuns
    (table : List GdtTableEntry)
    (limit : Nat)
    (frame ctx : RegisterCtx) :
    Prop :=
  HoldsCode table limit (frame.cs % 4) ctx.cs ∧
    HoldsStack table limit (frame.cs % 4) ctx.ss ∧
    ctx.cr3 = frame.cr3 ∧ iopl ctx = iopl frame ∧
    (iopl frame < frame.cs % 4 → interruptible ctx = interruptible frame)

/-- Either a program is interrupted, or the kernel's code, which lies high. -/
def Interrupted
    (table : List GdtTableEntry)
    (limit : Nat)
    (frame ctx : RegisterCtx) :
    Prop :=
  (frame.cs % 4 ≠ 0 ∧ UserRuns table limit frame ctx) ∨
    (ctx.cs = kernelCs ∧ kernelHalf ≤ ctx.rip)

instance
    (table : List GdtTableEntry)
    (limit : Nat)
    (frame ctx : RegisterCtx) :
    Decidable (UserRuns table limit frame ctx) :=
  inferInstanceAs (Decidable (_ ∧ _ ∧ _ ∧ _ ∧ (_ → _)))

instance
    (table : List GdtTableEntry)
    (limit : Nat)
    (frame ctx : RegisterCtx) :
    Decidable (Interrupted table limit frame ctx) :=
  inferInstanceAs (Decidable ((_ ∧ _) ∨ (_ ∧ _)))

/-- The scheduler, and the registers to which the kernel returns. -/
structure Machine where
  history : History
  frame : RegisterCtx

namespace Machine

def currentProc (machine : Machine) : Int :=
  machine.history.kernel.sched.currentProc

def procs (machine : Machine) : ProcTable :=
  machine.history.kernel.sched.procs

/-- The registers to return to once an interrupt is done. -/
def resumed
    (machine : Machine)
    (ctx : RegisterCtx)
    (result : RegisterCtx × Kernel) :
    RegisterCtx :=
  if ctx.cs = kernelCs ∧ result.2.sched.currentProc = machine.currentProc then
    machine.frame
  else result.1

/--
If the kernel's code was interrupted and goes on, it will still return to where
it was going to return.
-/
def step (machine : Machine) : KernelOp → Option Machine
  | .interrupt reply ctx =>
      (interruptDispatch reply ctx machine.history.kernel).map fun result =>
        ⟨machine.history.afterInterrupt ctx result,
          machine.resumed ctx result⟩
  | op => (machine.history.step op).map fun history =>
      ⟨history, machine.frame⟩

def legal
    (tss : UInt64)
    (machine : Machine) :
    KernelOp → Prop
  | .enqueueProc tid => machine.history.kernel.sched.Exists tid
  | .interrupt _ ctx =>
      Interrupted (x64InitGdt tss) gdtrLimit machine.frame ctx
  | _ => True

instance
    (tss : UInt64)
    (machine : Machine) :
    (op : KernelOp) → Decidable (machine.legal tss op)
  | .createProcess _ => inferInstanceAs (Decidable True)
  | .enqueueProc tid => inferInstanceAs
      (Decidable (machine.history.kernel.sched.Exists tid))
  | .startRunning => inferInstanceAs (Decidable True)
  | .interrupt _ ctx => inferInstanceAs
      (Decidable (Interrupted (x64InitGdt tss) gdtrLimit machine.frame ctx))

end Machine

/-- At boot the kernel's own code runs. -/
def machineSystem (tss : UInt64) : System Machine KernelOp where
  init := fun machine =>
    machine.history = .boot ∧ machine.frame.cs = kernelCs
  legal := Machine.legal tss
  step := Machine.step

instance
    (tss : UInt64)
    (machine : Machine)
    (op : KernelOp) :
    Decidable ((machineSystem tss).legal machine op) :=
  inferInstanceAs (Decidable (machine.legal tss op))

/-- The scheduler does not see what the processor makes of the registers. -/
theorem machine_history
    {tss : UInt64}
    {machine target : Machine}
    {op : KernelOp}
    (last : (machineSystem tss).Step machine op target) :
    switchSystem.Step machine.history op target.history := by
  rcases last with ⟨legal, stepped⟩
  cases op with
  | createProcess spec =>
      cases stepped
      exact ⟨trivial, rfl⟩
  | enqueueProc tid =>
      cases stepped
      exact ⟨legal, rfl⟩
  | startRunning =>
      cases stepped
      exact ⟨trivial, rfl⟩
  | interrupt reply ctx =>
      rcases Option.map_eq_some_iff.mp stepped with ⟨result, returned, rfl⟩
      exact ⟨trivial, Option.map_eq_some_iff.mpr ⟨result, returned, rfl⟩⟩

/-! ## What an interrupt does to registers -/

section

variable
  {history : History}
  {reply : SyscallReply}
  {ctx ret : RegisterCtx}
  {kernel' : Kernel}

theorem timerInterrupt_kept
    {kernel : Kernel}
    (returned : timerInterrupt ctx kernel = some (ret, kernel'))
    (kept : kernel'.sched.currentProc = kernel.sched.currentProc) :
    ret = ctx := by
  rcases Option.bind_eq_some_iff.mp returned with
    ⟨⟨timer', sched⟩, ticked, continued⟩
  simp only at continued
  split at continued
  · cases continued
    rfl
  · rename_i changed
    generalize saved :
      (if 0 ≤ kernel.sched.currentProc ∧ Saved ctx then
        sched.saveCtx kernel.sched.currentProc.toNat ctx
      else sched) = after at continued
    have current : after.currentProc = sched.currentProc := by
      rw [← saved]
      split <;> rfl
    split at continued
    · cases continued
    · cases continued
      exact (changed (kept.symm.trans current)).elim

/-- Without a switch only the value of a system call changes. -/
theorem interruptDispatch_kept
    {kernel : Kernel}
    (returned : interruptDispatch reply ctx kernel = some (ret, kernel'))
    (kept : kernel'.sched.currentProc = kernel.sched.currentProc) :
    ∃ rax, ret = { ctx with rax := rax } := by
  rw [interruptDispatch] at returned
  split at returned
  · exact ⟨ctx.rax, timerInterrupt_kept returned kept⟩
  · cases returned
    exact ⟨ctx.rax, rfl⟩
  · cases returned
    exact ⟨ctx.rax, rfl⟩
  · cases returned
    exact ⟨ctx.rax, rfl⟩
  · have first := congrArg Prod.fst (Option.some.inj returned)
    rw [syscallInterrupt] at first
    split at first
    · exact ⟨ctx.rax, first.symm⟩
    · exact ⟨reply.sysret, first.symm⟩
  · cases returned

/--
The process which runs goes on with the registers it had, but for `rax`, or
another process goes on with those which are saved for it.
-/
theorem interruptDispatch_registers
    (inv : SchedInv history.kernel.sched)
    (returned : interruptDispatch reply ctx history.kernel =
      some (ret, kernel')) :
    (∀ tid, (kernel'.sched.procs tid).present =
        (history.kernel.sched.procs tid).present) ∧
      ((kernel'.sched.currentProc = history.kernel.sched.currentProc ∧
          (∃ rax, ret = { ctx with rax := rax }) ∧
          ∀ tid, (kernel'.sched.procs tid).ctx =
            (history.kernel.sched.procs tid).ctx) ∨
        (kernel'.sched.currentProc ≠ history.kernel.sched.currentProc ∧
          kernel'.sched.Exists kernel'.sched.currentProc ∧
          ret = (kernel'.sched.procs kernel'.sched.currentProc.toNat).ctx ∧
          ∀ tid : Nat, (kernel'.sched.procs tid).ctx =
            if history.kernel.sched.currentProc = tid ∧ Saved ctx then ctx
            else (history.kernel.sched.procs tid).ctx)) := by
  rcases interruptDispatch_cases returned with ticked | rfl | called
  · rcases timerInterrupt_cases inv ticked with
      ⟨sched, inv', procs, ⟨current, after⟩ | switched⟩
    · have kept : kernel'.sched.currentProc =
          history.kernel.sched.currentProc := by rw [after, current]
      refine ⟨fun tid => by rw [after, procs], .inl ⟨kept, ?_, ?_⟩⟩
      · exact interruptDispatch_kept returned kept
      · exact fun tid => by rw [after, procs]
    · rcases switched with ⟨changed, exists_, after, resumed⟩
      have current : kernel'.sched.currentProc = sched.currentProc := by
        rw [after]
        split <;> rfl
      have present (tid : Nat) : (kernel'.sched.procs tid).present =
          (history.kernel.sched.procs tid).present := by
        rw [after, ← procs]
        split
        · exact Sched.saveCtx_present ..
        · rfl
      refine ⟨present, .inr ⟨by rw [current]; exact changed, ?_, ?_, ?_⟩⟩
      · rw [current]
        refine ⟨exists_.1, exists_.2.1, ?_⟩
        rw [present, ← procs]
        exact exists_.2.2
      · rw [current]
        exact resumed
      · intro tid
        rw [after, ← procs]
        by_cases saves : 0 ≤ history.kernel.sched.currentProc ∧ Saved ctx
        · rw [if_pos saves]
          by_cases here : history.kernel.sched.currentProc = (tid : Int)
          · have index : history.kernel.sched.currentProc.toNat = tid := by
              omega
            rw [if_pos ⟨here, saves.2⟩, index, Sched.saveCtx]
            simp
          · have elsewhere :
                tid ≠ history.kernel.sched.currentProc.toNat := by omega
            rw [if_neg (fun both => here both.1),
              Sched.saveCtx_procs_of_ne _ _ elsewhere]
        · rw [if_neg saves, if_neg]
          rintro ⟨here, isUser⟩
          exact saves ⟨by omega, isUser⟩
  · exact ⟨fun _ => rfl, .inl ⟨rfl, interruptDispatch_kept returned rfl,
      fun _ => rfl⟩⟩
  · have after := syscallInterrupt_sched reply ctx history.kernel
    rw [← called] at after
    exact ⟨fun tid => (after.2.2 tid).1, .inl ⟨after.2.1,
      interruptDispatch_kept returned after.2.1,
      fun tid => (after.2.2 tid).2⟩⟩

end

/-! ## Rights -/

/-- The registers have the privileges of these first ones. -/
structure Rights (first ctx : RegisterCtx) : Prop where
  cs : ctx.cs = first.cs
  ss : ctx.ss = first.ss
  cr3 : ctx.cr3 = first.cr3
  ports : iopl ctx = 0
  interrupts : interruptible ctx = true

/-- The selectors of a user process, or of one of the kernel's. -/
def Selectors (first : RegisterCtx) : Prop :=
  (first.cs = userCs ∧ first.ss = userSs) ∨
    (first.cs = kernelCs ∧ first.ss = kernelSs)

theorem start_rights
    (spec : ProcessSpec)
    (tid : Nat)
    (old : Process) :
    Selectors (spec.start tid old).ctx ∧
      Rights (spec.start tid old).ctx (spec.start tid old).ctx := by
  have ports : rflagsStart / 2 ^ 12 % 4 = 0 := by decide
  have interrupts : rflagsStart.testBit 9 = true := by decide
  refine ⟨?_, rfl, rfl, rfl, ports, interrupts⟩
  cases isUser : spec.user with
  | true =>
      left
      simp [ProcessSpec.start, isUser]
  | false =>
      right
      simp [ProcessSpec.start, isUser]

section

variable
  {tss : UInt64}
  {first frame ctx : RegisterCtx}

theorem Rights.rax
    (rights : Rights first ctx)
    (rax : Nat) :
    Rights first { ctx with rax := rax } :=
  ⟨rights.cs, rights.ss, rights.cr3, rights.ports, rights.interrupts⟩

/-- Code below the highest privilege is that of a user process. -/
theorem Selectors.user
    (selectors : Selectors first)
    (rights : Rights first frame)
    (level : frame.cs % 4 ≠ 0) :
    frame.cs = userCs ∧ frame.ss = userSs := by
  rcases selectors with ⟨cs, ss⟩ | ⟨cs, _⟩
  · exact ⟨rights.cs.trans cs, rights.ss.trans ss⟩
  · rw [rights.cs, cs] at level
    exact (level rfl).elim

/-- Nothing which a user process may do to its registers gives it rights. -/
theorem Rights.userRuns
    (rights : Rights first frame)
    (selectors : Selectors first)
    (level : frame.cs % 4 ≠ 0)
    (runs : UserRuns (x64InitGdt tss) gdtrLimit frame ctx) :
    Rights first ctx := by
  rcases runs with ⟨code, stack, cr3, ports, interrupts⟩
  rcases selectors.user rights level with ⟨cs, ss⟩
  have user : frame.cs % 4 = 3 := by
    rw [cs]
    rfl
  rw [user] at code stack interrupts
  rw [holdsCode_user, ← cs] at code
  rw [holdsStack_user, ← ss] at stack
  have below : iopl frame < 3 := by
    rw [rights.ports]
    decide
  exact ⟨code.trans rights.cs, stack.trans rights.ss, cr3.trans rights.cr3,
    ports.trans rights.ports,
    (interrupts below).trans rights.interrupts⟩

end

/-- All processes, and what runs, have the rights which they began with. -/
structure Privileged (machine : Machine) : Prop where
  switch : SwitchInv machine.history
  created : ∀ tid first, .created tid first ∈ machine.history.events →
    (machine.procs tid).present = true ∧ Selectors first ∧
      Rights first (machine.procs tid).ctx ∧
      (first.cs = kernelCs → (machine.procs tid).ctx = first)
  known : ∀ tid, (machine.procs tid).present = true →
    ∃ first, .created tid first ∈ machine.history.events
  idle : machine.currentProc = -1 → machine.frame.cs = kernelCs
  running : ∀ (tid : Nat) first, machine.currentProc = tid →
    .created tid first ∈ machine.history.events →
      Rights first machine.frame

section

variable
  {tss : UInt64}
  {machine target : Machine}
  {ctx : RegisterCtx}

/-- Registers below the highest privilege are those of a user process. -/
theorem Privileged.interrupted
    (privileged : Privileged machine)
    (interrupted : Interrupted (x64InitGdt tss) gdtrLimit machine.frame ctx)
    {tid : Nat}
    {first : RegisterCtx}
    (current : machine.currentProc = tid)
    (member : .created tid first ∈ machine.history.events) :
    (Rights first ctx ∧ first.cs = userCs) ∨
      (ctx.cs = kernelCs ∧ ¬ Saved ctx) := by
  rcases interrupted with ⟨level, runs⟩ | ⟨cs, high⟩
  · left
    have rights := privileged.running tid first current member
    have selectors := (privileged.created tid first member).2.1
    refine ⟨rights.userRuns selectors level runs, ?_⟩
    rw [← rights.cs]
    exact (selectors.user rights level).1
  · right
    exact ⟨cs, fun saved => Nat.not_lt.mpr high saved⟩

theorem mem_created_afterInterrupt
    {history : History}
    {result : RegisterCtx × Kernel}
    {tid : Nat}
    {first : RegisterCtx} :
    .created tid first ∈ (history.afterInterrupt ctx result).events ↔
      .created tid first ∈ history.events := by
  rw [History.afterInterrupt]
  split
  · rfl
  · simp

/-- What a process is resumed with has the rights of the process. -/
theorem Privileged.created_interrupt
    {reply : SyscallReply}
    {ret : RegisterCtx}
    {kernel' : Kernel}
    (privileged : Privileged machine)
    (interrupted : Interrupted (x64InitGdt tss) gdtrLimit machine.frame ctx)
    (returned : interruptDispatch reply ctx machine.history.kernel =
      some (ret, kernel'))
    {tid : Nat}
    {first : RegisterCtx}
    (member : .created tid first ∈ machine.history.events) :
    (kernel'.sched.procs tid).present = true ∧ Selectors first ∧
      Rights first (kernel'.sched.procs tid).ctx ∧
      (first.cs = kernelCs → (kernel'.sched.procs tid).ctx = first) := by
  rcases privileged.created tid first member with
    ⟨present, selectors, rights, fixed⟩
  rcases interruptDispatch_registers privileged.switch.sched returned with
    ⟨presents, ⟨_, _, same⟩ | ⟨_, _, _, saved⟩⟩
  · rw [presents, same]
    exact ⟨present, selectors, rights, fixed⟩
  · rw [presents, saved]
    refine ⟨present, selectors, ?_⟩
    split
    · rename_i saves
      rcases privileged.interrupted interrupted saves.1 member with
        ⟨kept, user⟩ | ⟨_, unsaved⟩
      · refine ⟨kept, fun kernel => ?_⟩
        cases user.symm.trans kernel
      · exact (unsaved saves.2).elim
    · exact ⟨rights, fixed⟩

theorem Privileged.interrupt
    {reply : SyscallReply}
    {ret : RegisterCtx}
    {kernel' : Kernel}
    (privileged : Privileged machine)
    (interrupted : Interrupted (x64InitGdt tss) gdtrLimit machine.frame ctx)
    (returned : interruptDispatch reply ctx machine.history.kernel =
      some (ret, kernel')) :
    Privileged ⟨machine.history.afterInterrupt ctx (ret, kernel'),
      machine.resumed ctx (ret, kernel')⟩ := by
  have registers :=
    interruptDispatch_registers privileged.switch.sched returned
  constructor
  · exact privileged.switch.interrupt returned
  · intro tid first member
    exact privileged.created_interrupt interrupted returned
      (mem_created_afterInterrupt.mp member)
  · intro tid present
    have before : (machine.procs tid).present = true :=
      (registers.1 tid).symm.trans present
    rcases privileged.known tid before with ⟨first, member⟩
    exact ⟨first, mem_created_afterInterrupt.mpr member⟩
  · intro idle
    have idle' : kernel'.sched.currentProc = -1 := idle
    rcases registers.2 with ⟨kept, _, _⟩ | ⟨_, exists_, _⟩
    · have kernel := privileged.idle (kept.symm.trans idle')
      rcases interrupted with ⟨level, _⟩ | ⟨cs, _⟩
      · rw [kernel] at level
        exact (level rfl).elim
      · show (machine.resumed ctx (ret, kernel')).cs = kernelCs
        rw [Machine.resumed, if_pos ⟨cs, kept⟩]
        exact kernel
    · have positive := exists_.1
      omega
  · intro tid first current member
    have current' : kernel'.sched.currentProc = tid := current
    have member' := mem_created_afterInterrupt.mp member
    show Rights first (machine.resumed ctx (ret, kernel'))
    rcases registers.2 with ⟨kept, ⟨rax, same⟩, _⟩ | ⟨changed, _, same, _⟩
    · have runs : machine.currentProc = tid := kept.symm.trans current'
      rcases privileged.interrupted interrupted runs member' with
        ⟨rights, user⟩ | ⟨cs, _⟩
      · rw [Machine.resumed, if_neg, same]
        · exact rights.rax rax
        · rintro ⟨cs, _⟩
          cases (rights.cs.trans user).symm.trans cs
      · rw [Machine.resumed, if_pos ⟨cs, kept⟩]
        exact privileged.running tid first runs member'
    · rw [Machine.resumed, if_neg fun both => changed both.2, same, current',
        Int.toNat_natCast]
      exact (privileged.created_interrupt interrupted returned
        member').2.2.1

/-- A new process takes a free slot, which is not that of the one running. -/
theorem Privileged.create
    (privileged : Privileged machine)
    (spec : ProcessSpec) :
    Privileged ⟨machine.history.create spec, machine.frame⟩ := by
  have switch := privileged.switch.create spec
  rcases createProcess_cases spec machine.procs with
    refused | ⟨tid, lt, absent, made⟩
  · rw [Machine.procs] at refused
    rw [History.create, refused] at switch ⊢
    exact ⟨switch, privileged.created, privileged.known, privileged.idle,
      privileged.running⟩
  · have notNegative : ¬ (tid : Int) < 0 := by omega
    rw [Machine.procs] at made
    simp only [History.create, made, if_neg notNegative,
      Int.toNat_natCast] at switch ⊢
    have other {tid' : Nat} {first : RegisterCtx}
        (member : .created tid' first ∈ machine.history.events) :
        tid' ≠ tid := by
      rintro rfl
      cases absent.symm.trans (privileged.created tid' first member).1
    have started := start_rights spec tid (machine.procs tid)
    constructor
    · exact switch
    · intro tid' first member
      simp only [Machine.procs]
      rcases List.mem_cons.mp member with new | old
      · cases new
        rw [Function.update_self]
        exact ⟨rfl, started.1, started.2, fun _ => rfl⟩
      · rw [Function.update_of_ne (other old)]
        exact privileged.created tid' first old
    · intro tid' present
      by_cases same : tid' = tid
      · subst same
        exact ⟨_, List.mem_cons_self⟩
      · simp only [Machine.procs, Function.update_of_ne same] at present
        rcases privileged.known tid' present with ⟨first, member⟩
        exact ⟨first, List.mem_cons_of_mem _ member⟩
    · exact privileged.idle
    · intro tid' first current member
      rcases List.mem_cons.mp member with new | old
      · cases new
        rcases privileged.switch.sched.running with none_runs | exists_
        · have none : machine.currentProc = -1 := none_runs
          have runs : machine.currentProc = (tid : Int) := current
          omega
        · have runs : machine.history.kernel.sched.currentProc = (tid : Int) :=
            current
          have present := exists_.2.2
          rw [runs, Int.toNat_natCast] at present
          cases absent.symm.trans present
      · exact privileged.running tid' first current old

theorem Privileged.step
    {op : KernelOp}
    (privileged : Privileged machine)
    (last : (machineSystem tss).Step machine op target) :
    Privileged target := by
  have switch := privileged.switch.step (machine_history last)
  rcases last with ⟨legal, stepped⟩
  cases op with
  | createProcess spec =>
      cases stepped
      exact privileged.create spec
  | enqueueProc tid =>
      cases stepped
      exact ⟨switch, privileged.created, privileged.known, privileged.idle,
        privileged.running⟩
  | startRunning =>
      cases stepped
      exact ⟨switch, privileged.created, privileged.known, privileged.idle,
        privileged.running⟩
  | interrupt reply ctx =>
      rcases Option.map_eq_some_iff.mp stepped with
        ⟨⟨ret, kernel'⟩, returned, rfl⟩
      exact privileged.interrupt legal returned

end

theorem privileged_of_reachable
    {tss : UInt64}
    {machine : Machine}
    (reachable : (machineSystem tss).Reachable machine) :
    Privileged machine := by
  apply reachable.invariant
  · rintro ⟨history, frame⟩ ⟨rfl, kernel⟩
    refine ⟨boot_switchInv, ?_, ?_, fun _ => kernel, ?_⟩
    · intro tid first member
      cases member
    · intro tid present
      cases present
    · intro tid first current member
      cases member
  · exact fun _ _ _ privileged last => privileged.step last

/-! ## Every run -/

/--
What the processor allows a program with these registers.  It cannot change its
privileges, and only system calls take it into the kernel, but most ports are
open to it.
-/
structure Confined
    (tss : UInt64)
    (frame : RegisterCtx) :
    Prop where
  registers : ∀ ctx, UserRuns (x64InitGdt tss) gdtrLimit frame ctx →
    Rights frame ctx
  gates : ∀ isr vector,
    softwareInterrupt (idtInit isr blankTable) (x64InitGdt tss) gdtrLimit
        (frame.cs % 4) vector =
      if vector = 0xf0 then some (0, (isr vector).toNat) else none
  callGates : ∀ selector,
    (accessOf (x64InitGdt tss) gdtrLimit selector).any isCallGate = false
  ports : ∃ first second, (x64InitGdt tss)[5]? = some first ∧
    (x64InitGdt tss)[6]? = some second ∧ tssBase first second = tss.toNat ∧
      ∀ stack, ∀ port < 8 * iopbSize,
        (PortOpen (idtInitTss stack) (segmentLimit first) port ↔
          port < 8 * (iopbSize - 1))

theorem confined
    {tss : UInt64}
    {first frame : RegisterCtx}
    (selectors : Selectors first)
    (rights : Rights first frame)
    (user : first.cs = userCs) :
    Confined tss frame := by
  have level : frame.cs % 4 = 3 := by
    rw [rights.cs, user]
    rfl
  have own : Rights frame frame :=
    ⟨rfl, rfl, rfl, rights.ports, rights.interrupts⟩
  have kept : Selectors frame := by
    rw [Selectors, rights.cs, rights.ss]
    exact selectors
  constructor
  · intro ctx runs
    exact own.userRuns kept (by omega) runs
  · intro isr vector
    rw [level]
    exact softwareInterrupt_user isr tss vector
  · exact no_callGate tss
  · exact ⟨_, _, rfl, rfl, tssBase_init tss 0, fun stack port inside =>
      portOpen_iff stack tss inside⟩

/-- A program for user mode, or one of the kernel's. -/
def programSpec (user : Bool) : ProcessSpec where
  name := []
  entry := if user then 0x200000000 else kernelHalf
  arg := 0
  stack := 0x1000
  user := user
  userPml4 := 0x5000
  kernelPml4 := 0x6000
  newStack := 0
  defaultCwd := 0

def kernelTick : RegisterCtx :=
  { RegisterCtx.zero with
    vector := 0x20, cs := kernelCs, ss := kernelSs, rip := kernelHalf + 8 }

/-- The program has set a flag and jumped. -/
def userTick : RegisterCtx :=
  { RegisterCtx.zero with
    vector := 0x20, cs := userCs, ss := userSs, cr3 := 0x5000
    rflags := rflagsStart + 1, rip := 0x200000040, rax := 7 }

def bootMachine : Machine :=
  ⟨.boot, kernelTick⟩

/-- The program is interrupted once itself, and once as it makes a call. -/
def twoPrograms (reply : SyscallReply) : List KernelOp :=
  [.createProcess (programSpec true), .createProcess (programSpec false),
    .enqueueProc 0, .enqueueProc 1, .startRunning,
    .interrupt reply kernelTick, .interrupt reply userTick,
    .interrupt reply kernelTick, .interrupt reply kernelTick,
    .interrupt reply kernelTick]

def emptyReply : SyscallReply :=
  ⟨0, fun _ => -1⟩

theorem twoPrograms_replayed :
    ((machineSystem 0x1234567890).replay bootMachine
      (twoPrograms emptyReply)).isSome = true := by
  decide +kernel

def afterTwoPrograms : Machine :=
  ((machineSystem 0x1234567890).replay bootMachine
    (twoPrograms emptyReply)).get twoPrograms_replayed

end ForsKernel.Interrupts
