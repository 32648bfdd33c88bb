import ForsKernel.Lib.Transition
import ForsKernel.Proc.Process

/-!
# Interrupts and context switches

`interrupt_dispatch` is handed the registers of whatever was interrupted and
returns the registers to continue with.  Only the timer switches between
processes: it saves the registers it was handed if they are those of user
code, and continues with the ones saved for the process to run.

A history records every switch with the registers handed over, and from it one
reads off where a process should resume.
-/

namespace ForsKernel.Proc

open ForsKernel.Lib.Transition

/-! ## The kernel -/

/-- The functions which are registered with the timer. -/
inductive TimerCallback where
  | scheduleSetCurrentProc

/-- The process table, the run queue and the process which runs. -/
structure Sched where
  procs : ProcTable
  queue : RunQueue
  currentProc : Int

structure Kernel where
  sched : Sched
  timer : Timer TimerCallback

def scheduleSetCurrentProc (sched : Sched) : Sched :=
  let next := sched.queue.schedule
  { sched with queue := next.2, currentProc := next.1 }

def TimerCallback.call : TimerCallback → Sched → Sched
  | .scheduleSetCurrentProc => Proc.scheduleSetCurrentProc

/-- The timer part of `arch_start_running_procs`. -/
def archStartRunningProcs (kernel : Kernel) : Kernel :=
  { kernel with
    timer := (kernel.timer.addTimerHandle .scheduleSetCurrentProc 1).2 }

/-- Addresses from here on are the kernel's. -/
def kernelHalf : Nat := 0xffff800000000000

/-- Only user code is saved at a switch. -/
def Saved (ctx : RegisterCtx) : Prop :=
  ctx.rip < kernelHalf

instance (ctx : RegisterCtx) : Decidable (Saved ctx) :=
  inferInstanceAs (Decidable (_ < _))

/-- The value of a system call, and the descriptors it leaves its caller. -/
structure SyscallReply where
  sysret : Nat
  fdmap : Nat → Int

/-- `procs[tid].ctx = ctx`. -/
def Sched.saveCtx
    (sched : Sched)
    (tid : Nat)
    (ctx : RegisterCtx) :
    Sched :=
  { sched with
    procs := Function.update sched.procs tid
      { sched.procs tid with ctx := ctx } }

/-- `procs[tid].fdmap`, as a system call leaves it. -/
def Sched.setFdmap
    (sched : Sched)
    (tid : Nat)
    (fdmap : Nat → Int) :
    Sched :=
  { sched with
    procs := Function.update sched.procs tid
      { sched.procs tid with fdmap := fdmap } }

/--
The timer interrupt.  A switch to tid `-1` would continue with whatever stands
before the process table.
-/
def timerInterrupt
    (ctx : RegisterCtx)
    (kernel : Kernel) :
    Option (RegisterCtx × Kernel) :=
  let procSave := kernel.sched.currentProc
  (kernel.timer.timerTick TimerCallback.call kernel.sched).bind fun ticked =>
    let sched := ticked.2
    if procSave = sched.currentProc then
      some (ctx, ⟨sched, ticked.1⟩)
    else
      let sched' :=
        if 0 ≤ procSave ∧ Saved ctx then sched.saveCtx procSave.toNat ctx
        else sched
      if sched'.currentProc < 0 then none
      else some ((sched'.procs sched'.currentProc.toNat).ctx,
        ⟨sched', ticked.1⟩)

/--
`SYSCALL_VECTOR`, with a debug call which only prints.  A system call changes
the descriptors of the process which runs, if there is one.
-/
def syscallInterrupt
    (reply : SyscallReply)
    (ctx : RegisterCtx)
    (kernel : Kernel) :
    RegisterCtx × Kernel :=
  let currentProc := kernel.sched.currentProc
  if ctx.rax = 100 then (ctx, kernel)
  else ({ ctx with rax := reply.sysret },
    if currentProc < 0 then kernel
    else { kernel with
      sched := kernel.sched.setFdmap currentProc.toNat reply.fdmap })

/-- Faults panic, and an unknown vector halts. -/
def interruptDispatch
    (reply : SyscallReply)
    (ctx : RegisterCtx)
    (kernel : Kernel) :
    Option (RegisterCtx × Kernel) :=
  match ctx.vector with
  | 0x20 => timerInterrupt ctx kernel
  | 0x21 => some (ctx, kernel)
  | 0x2e => some (ctx, kernel)
  | 0x2f => some (ctx, kernel)
  | 0xf0 => some (syscallInterrupt reply ctx kernel)
  | _ => none

/-! ## Histories -/

/-- What decides where processes resume. -/
inductive SwitchEvent where
  | created (tid : Nat) (ctx : RegisterCtx)
  | switchedAway (tid : Int) (ctx : RegisterCtx)

/--
The last registers which were handed over while process `tid` ran, counting
the switches that `counts` selects, or those it was created with.  The newest
event stands first.
-/
def lastContext
    (counts : RegisterCtx → Prop)
    [DecidablePred counts]
    (tid : Nat) :
    List SwitchEvent → Option RegisterCtx
  | [] => none
  | .created other ctx :: before =>
      if other = tid then some ctx else lastContext counts tid before
  | .switchedAway other ctx :: before =>
      if other = tid ∧ counts ctx then some ctx
      else lastContext counts tid before

structure History where
  kernel : Kernel
  events : List SwitchEvent

inductive KernelOp where
  | createProcess (spec : ProcessSpec)
  | enqueueProc (tid : Int)
  | startRunning
  | interrupt (reply : SyscallReply) (ctx : RegisterCtx)

/-- A process with this tid exists. -/
def Sched.Exists
    (sched : Sched)
    (tid : Int) :
    Prop :=
  0 ≤ tid ∧ tid < maxProcs ∧ (sched.procs tid.toNat).present = true

instance
    (sched : Sched)
    (tid : Int) :
    Decidable (sched.Exists tid) :=
  inferInstanceAs (Decidable (_ ∧ _ ∧ _))

namespace History

/-- Only processes are put into the run queue. -/
def legal (history : History) : KernelOp → Prop
  | .enqueueProc tid => history.kernel.sched.Exists tid
  | _ => True

/-- A new process with its registers. -/
def create
    (history : History)
    (spec : ProcessSpec) :
    History :=
  let sched := history.kernel.sched
  let created := Proc.createProcess spec sched.procs
  { kernel :=
      { history.kernel with sched := { sched with procs := created.2 } }
    events :=
      if created.1 < 0 then history.events
      else .created created.1.toNat (created.2 created.1.toNat).ctx ::
        history.events }

/-- A switch is recorded with the process which ran before it. -/
def afterInterrupt
    (history : History)
    (ctx : RegisterCtx)
    (result : RegisterCtx × Kernel) :
    History where
  kernel := result.2
  events :=
    if result.2.sched.currentProc = history.kernel.sched.currentProc then
      history.events
    else
      .switchedAway history.kernel.sched.currentProc ctx :: history.events

def step (history : History) : KernelOp → Option History
  | .createProcess spec => some (history.create spec)
  | .enqueueProc tid =>
      let sched := history.kernel.sched
      some { history with
        kernel := { history.kernel with
          sched := { sched with
            queue := (sched.queue.enqueueProc tid).2 } } }
  | .startRunning =>
      some { history with kernel := archStartRunningProcs history.kernel }
  | .interrupt reply ctx =>
      (interruptDispatch reply ctx history.kernel).map
        (history.afterInterrupt ctx)

/-- The kernel before any process was created. -/
def boot : History where
  kernel :=
    { sched := ⟨fun _ => .blank, .boot, -1⟩
      timer := ⟨0, []⟩ }
  events := []

end History

/-- The kernel with its history, driven by requests and interrupts. -/
def switchSystem : System History KernelOp where
  init := fun history => history = .boot
  legal := History.legal
  step := History.step

/-! ## Where processes resume -/

/-- Only processes wait or run; `-1` stands for none. -/
structure SchedInv (sched : Sched) : Prop where
  queue_wf : sched.queue.Wf maxProcs
  queued : ∀ tid ∈ sched.queue.tids, tid = -1 ∨ sched.Exists tid
  running : sched.currentProc = -1 ∨ sched.Exists sched.currentProc

/-- The saved registers are the last ones which count in the history. -/
structure SwitchInv (history : History) : Prop where
  sched : SchedInv history.kernel.sched
  resumes : ∀ tid < maxProcs,
    (history.kernel.sched.procs tid).present = true →
      lastContext Saved tid history.events =
        some (history.kernel.sched.procs tid).ctx

section

variable {sched sched' : Sched}

theorem SchedInv.congr
    (inv : SchedInv sched)
    (present : ∀ tid, (sched.procs tid).present = true →
      (sched'.procs tid).present = true)
    (queue : sched'.queue = sched.queue)
    (current : sched'.currentProc = sched.currentProc) :
    SchedInv sched' := by
  have exist (tid : Int) (old : sched.Exists tid) : sched'.Exists tid :=
    ⟨old.1, old.2.1, present _ old.2.2⟩
  refine ⟨?_, ?_, ?_⟩
  · rw [queue]
    exact inv.queue_wf
  · intro tid member
    rw [queue] at member
    exact (inv.queued tid member).imp_right (exist tid)
  · rw [current]
    exact inv.running.imp_right (exist _)

/-- The scheduler chooses a process from the queue. -/
theorem SchedInv.schedule (inv : SchedInv sched) :
    SchedInv (scheduleSetCurrentProc sched) := by
  rcases RunQueue.schedule_cases inv.queue_wf with
    ⟨tid, queue', scheduled, wf', turned⟩
  have after : scheduleSetCurrentProc sched =
      { sched with queue := queue', currentProc := tid } := by
    rw [scheduleSetCurrentProc, scheduled]
  rw [after]
  rcases turned with ⟨_, rfl, only⟩ | ⟨rest, front, back⟩
  · refine ⟨wf', ?_, .inl rfl⟩
    intro other member
    rw [only] at member
    exact .inl (List.mem_singleton.mp member)
  · have queued (other : Int) (member : other ∈ rest ++ [tid]) :
        other = -1 ∨ sched.Exists other := by
      apply inv.queued
      rw [front]
      rcases List.mem_append.mp member with old | last
      · exact List.mem_cons_of_mem tid old
      · exact List.mem_cons.mpr (.inl (List.mem_singleton.mp last))
    refine ⟨wf', ?_, queued tid (by simp)⟩
    intro other member
    rw [back] at member
    exact queued other member

/-- A tick may turn the queue, and changes no process. -/
theorem timerTick_sched
    {timer timer' : Timer TimerCallback}
    (inv : SchedInv sched)
    (ticked : timer.timerTick TimerCallback.call sched =
      some (timer', sched')) :
    SchedInv sched' ∧ sched'.procs = sched.procs := by
  rcases Option.map_eq_some_iff.mp ticked with ⟨state, ran, result⟩
  cases result
  apply Timer.runHandles_invariant ran ⟨inv, rfl⟩
  rintro ⟨⟩ state ⟨inv, same⟩
  exact ⟨inv.schedule, same⟩

end

section

variable
  {history : History}
  {ctx ret : RegisterCtx}
  {kernel' : Kernel}

/-- A tick leaves the process running, or switches to another process. -/
theorem timerInterrupt_cases
    (inv : SchedInv history.kernel.sched)
    (returned : timerInterrupt ctx history.kernel = some (ret, kernel')) :
    ∃ sched, SchedInv sched ∧ sched.procs = history.kernel.sched.procs ∧
      ((sched.currentProc = history.kernel.sched.currentProc ∧
          kernel'.sched = sched) ∨
        (sched.currentProc ≠ history.kernel.sched.currentProc ∧
          sched.Exists sched.currentProc ∧
          kernel'.sched =
            (if 0 ≤ history.kernel.sched.currentProc ∧ Saved ctx then
              sched.saveCtx history.kernel.sched.currentProc.toNat ctx
            else sched) ∧
          ret =
            (kernel'.sched.procs sched.currentProc.toNat).ctx)) := by
  rcases Option.bind_eq_some_iff.mp returned with
    ⟨⟨timer', sched⟩, ticked, continued⟩
  rcases timerTick_sched inv ticked with ⟨inv', procs⟩
  refine ⟨sched, inv', procs, ?_⟩
  simp only at continued
  split at continued
  · rename_i same
    cases continued
    exact .inl ⟨same.symm, rfl⟩
  · rename_i changed
    right
    have current : (if 0 ≤ history.kernel.sched.currentProc ∧ Saved ctx then
        sched.saveCtx history.kernel.sched.currentProc.toNat ctx
        else sched).currentProc = sched.currentProc := by
      split <;> rfl
    rw [current] at continued
    split at continued
    · cases continued
    · rename_i notNegative
      cases continued
      refine ⟨fun same => changed same.symm, ?_, rfl, rfl⟩
      rcases inv'.running with none_runs | exists_
      · omega
      · exact exists_

/-- Saving the registers of one process leaves the others alone. -/
theorem Sched.saveCtx_procs_of_ne
    (sched : Sched)
    {tid other : Nat}
    (ctx : RegisterCtx)
    (different : other ≠ tid) :
    (sched.saveCtx tid ctx).procs other = sched.procs other :=
  Function.update_of_ne different ..

theorem Sched.saveCtx_present
    (sched : Sched)
    (tid other : Nat)
    (ctx : RegisterCtx) :
    ((sched.saveCtx tid ctx).procs other).present =
      (sched.procs other).present := by
  by_cases same : other = tid
  · subst same
    simp [Sched.saveCtx]
  · rw [Sched.saveCtx_procs_of_ne _ _ same]

/-- Every interrupt but the timer's lets the process run on. -/
theorem interruptDispatch_cases
    {reply : SyscallReply}
    (returned : interruptDispatch reply ctx history.kernel =
      some (ret, kernel')) :
    timerInterrupt ctx history.kernel = some (ret, kernel') ∨
      kernel' = history.kernel ∨
      (ret, kernel') = syscallInterrupt reply ctx history.kernel := by
  rw [interruptDispatch] at returned
  split at returned
  · exact .inl returned
  · cases returned
    exact .inr (.inl rfl)
  · cases returned
    exact .inr (.inl rfl)
  · cases returned
    exact .inr (.inl rfl)
  · exact .inr (.inr (Option.some.inj returned).symm)
  · cases returned

/-- A system call leaves the registers and the scheduler alone. -/
theorem syscallInterrupt_sched
    (reply : SyscallReply)
    (ctx : RegisterCtx)
    (kernel : Kernel) :
    let after := (syscallInterrupt reply ctx kernel).2.sched
    after.queue = kernel.sched.queue ∧
      after.currentProc = kernel.sched.currentProc ∧
      ∀ tid, (after.procs tid).present = (kernel.sched.procs tid).present ∧
        (after.procs tid).ctx = (kernel.sched.procs tid).ctx := by
  intro after
  rw [show after = (syscallInterrupt reply ctx kernel).2.sched from rfl,
    syscallInterrupt]
  split
  · exact ⟨rfl, rfl, fun _ => ⟨rfl, rfl⟩⟩
  · split
    · exact ⟨rfl, rfl, fun _ => ⟨rfl, rfl⟩⟩
    · refine ⟨rfl, rfl, ?_⟩
      intro tid
      by_cases same : tid = kernel.sched.currentProc.toNat
      · subst same
        simp [Sched.setFdmap]
      · simp [Sched.setFdmap, same]

/-! ### What one step preserves -/

/-- At a switch, the process which ran is saved if its registers count. -/
theorem resumes_after_switch
    {sched : Sched}
    (inv : SwitchInv history)
    (procs : sched.procs = history.kernel.sched.procs)
    {tid : Nat}
    (lt : tid < maxProcs) :
    let from_ := history.kernel.sched.currentProc
    let saved := if 0 ≤ from_ ∧ Saved ctx then sched.saveCtx from_.toNat ctx
      else sched
    (saved.procs tid).present = true →
      (if from_ = (tid : Int) ∧ Saved ctx then some ctx
        else lastContext Saved tid history.events) =
          some (saved.procs tid).ctx := by
  intro from_ saved present
  by_cases counted : 0 ≤ from_ ∧ Saved ctx
  · have isSaved : saved = sched.saveCtx from_.toNat ctx := if_pos counted
    rw [isSaved] at present ⊢
    by_cases here : from_ = (tid : Int)
    · rw [if_pos ⟨here, counted.2⟩]
      have index : from_.toNat = tid := by omega
      rw [index, Sched.saveCtx]
      simp
    · have elsewhere : tid ≠ from_.toNat := by omega
      rw [if_neg (fun both => here both.1)]
      rw [Sched.saveCtx_procs_of_ne _ _ elsewhere, procs] at present ⊢
      exact inv.resumes tid lt present
  · have isSame : saved = sched := if_neg counted
    rw [isSame, procs] at present ⊢
    have notHere : ¬ (from_ = (tid : Int) ∧ Saved ctx) := by
      rintro ⟨here, isUser⟩
      exact counted ⟨by omega, isUser⟩
    rw [if_neg notHere]
    exact inv.resumes tid lt present

theorem SwitchInv.interrupt
    {reply : SyscallReply}
    (inv : SwitchInv history)
    (returned : interruptDispatch reply ctx history.kernel =
      some (ret, kernel')) :
    SwitchInv (history.afterInterrupt ctx (ret, kernel')) := by
  rcases interruptDispatch_cases returned with ticked | same | called
  · rcases timerInterrupt_cases inv.sched ticked with
      ⟨sched, inv', procs, kept | switched⟩
    · rcases kept with ⟨current, after⟩
      rw [History.afterInterrupt, if_pos (by rw [after, current])]
      refine ⟨?_, ?_⟩
      · show SchedInv kernel'.sched
        rw [after]
        exact inv'
      · intro tid lt
        show (kernel'.sched.procs tid).present = true → _ =
          some (kernel'.sched.procs tid).ctx
        rw [after, procs]
        exact inv.resumes tid lt
    · rcases switched with ⟨changed, exists_, after, _⟩
      have current : kernel'.sched.currentProc = sched.currentProc := by
        rw [after]
        split <;> rfl
      rw [History.afterInterrupt,
        if_neg (by rw [current]; exact changed)]
      constructor
      · show SchedInv kernel'.sched
        apply inv'.congr
        · intro tid present
          rw [after]
          split
          · rw [Sched.saveCtx_present]
            exact present
          · exact present
        · rw [after]
          split <;> rfl
        · exact current
      · intro tid lt
        show (kernel'.sched.procs tid).present = true →
          (if _ = (tid : Int) ∧ Saved ctx then some ctx else _) =
            some (kernel'.sched.procs tid).ctx
        rw [after]
        exact resumes_after_switch inv procs lt
  · subst same
    rw [History.afterInterrupt, if_pos rfl]
    exact ⟨inv.sched, inv.resumes⟩
  · have after := syscallInterrupt_sched reply ctx history.kernel
    rw [← called] at after
    rcases after with ⟨queue, current, procs⟩
    rw [History.afterInterrupt, if_pos current]
    refine ⟨inv.sched.congr (fun tid => ?_) queue current, ?_⟩
    · intro present
      rw [(procs tid).1]
      exact present
    · intro tid lt
      show (kernel'.sched.procs tid).present = true → _ =
        some (kernel'.sched.procs tid).ctx
      rw [(procs tid).1, (procs tid).2]
      exact inv.resumes tid lt

/-- A new process resumes where it was created. -/
theorem SwitchInv.create
    (inv : SwitchInv history)
    (spec : ProcessSpec) :
    SwitchInv (history.create spec) := by
  have table := createProcess_cases spec history.kernel.sched.procs
  rcases table with refused | ⟨tid, lt, absent, made⟩
  · rw [History.create, refused]
    exact ⟨inv.sched.congr (fun _ present => present) rfl rfl, inv.resumes⟩
  · have notNegative : ¬ (tid : Int) < 0 := by omega
    simp only [History.create, made, if_neg notNegative, Int.toNat_natCast]
    constructor
    · apply inv.sched.congr
      · intro other present
        by_cases same : other = tid
        · subst same
          rw [absent] at present
          cases present
        · simpa [same] using present
      · rfl
      · rfl
    · intro other otherLt
      by_cases same : other = tid
      · subst same
        simp [lastContext]
      · simpa [lastContext, same, Ne.symm same]
          using inv.resumes other otherLt

theorem SwitchInv.step
    {history' : History}
    {op : KernelOp}
    (inv : SwitchInv history)
    (last : switchSystem.Step history op history') :
    SwitchInv history' := by
  rcases last with ⟨legal, stepped⟩
  have stepped' : history.step op = some history' := stepped
  cases op with
  | createProcess spec =>
      cases stepped'
      exact inv.create spec
  | enqueueProc tid =>
      cases stepped'
      refine ⟨?_, inv.resumes⟩
      rcases RunQueue.enqueueProc_cases inv.sched.queue_wf tid with
        ⟨_, refused⟩ | ⟨queue', enqueued, wf', back⟩
      · rw [refused]
        exact inv.sched
      · rw [enqueued]
        refine ⟨wf', ?_, inv.sched.running⟩
        intro other member
        rw [back, List.mem_append, List.mem_singleton] at member
        rcases member with old | rfl
        · exact inv.sched.queued other old
        · exact .inr legal
  | startRunning =>
      cases stepped'
      exact ⟨inv.sched, inv.resumes⟩
  | interrupt reply ctx =>
      rcases Option.map_eq_some_iff.mp stepped' with
        ⟨⟨ret, kernel'⟩, returned, rfl⟩
      exact inv.interrupt returned

theorem boot_switchInv : SwitchInv .boot := by
  refine ⟨⟨RunQueue.boot_wf, ?_, .inl rfl⟩, ?_⟩
  · intro tid member
    have none_waits : RunQueue.boot.tids = [] := RunQueue.boot_tids
    rw [show History.boot.kernel.sched.queue = .boot from rfl,
      none_waits] at member
    cases member
  · intro tid _ present
    cases present

/-- In every reachable state the table agrees with the history. -/
theorem switchInv_of_reachable
    (reachable : switchSystem.Reachable history) : SwitchInv history := by
  apply reachable.invariant
  · rintro start rfl
    exact boot_switchInv
  · exact fun _ _ _ inv last => inv.step last

/-- If the event switches away from the process, it does so in user code. -/
def HitsUser (tid : Nat) : SwitchEvent → Prop
  | .created _ _ => True
  | .switchedAway other ctx => other = (tid : Int) → Saved ctx

instance (tid : Nat) : (event : SwitchEvent) → Decidable (HitsUser tid event)
  | .created _ _ => inferInstanceAs (Decidable True)
  | .switchedAway other ctx =>
      inferInstanceAs (Decidable (other = (tid : Int) → Saved ctx))

/-- If all switches away from the process count, then so does the last one. -/
theorem lastContext_of_hitsUser
    {tid : Nat}
    {events : List SwitchEvent}
    (user : ∀ event ∈ events, HitsUser tid event) :
    lastContext (fun _ => True) tid events = lastContext Saved tid events := by
  induction events with
  | nil => rfl
  | cons event before induction =>
      rcases List.forall_mem_cons.mp user with ⟨last, rest⟩
      cases event with
      | created other ctx => rw [lastContext, lastContext, induction rest]
      | switchedAway other ctx =>
          rw [lastContext, lastContext, induction rest]
          by_cases here : other = (tid : Int)
          · rw [if_pos ⟨here, trivial⟩, if_pos ⟨here, last here⟩]
          · rw [if_neg fun both => here both.1, if_neg fun both => here both.1]

/-- A process resumes where user code of it was last interrupted. -/
theorem resumes_lastSaved
    {reply : SyscallReply}
    {tid : Nat}
    (reachable : switchSystem.Reachable history)
    (returned : interruptDispatch reply ctx history.kernel =
      some (ret, kernel'))
    (changed : kernel'.sched.currentProc ≠ history.kernel.sched.currentProc)
    (switched : kernel'.sched.currentProc = tid) :
    lastContext Saved tid history.events = some ret := by
  have inv := switchInv_of_reachable reachable
  rcases interruptDispatch_cases returned with ticked | same | called
  · rcases timerInterrupt_cases inv.sched ticked with
      ⟨sched, inv', procs, kept | ⟨different, exists_, after, result⟩⟩
    · rw [kept.2] at changed
      exact (changed kept.1).elim
    · have current : kernel'.sched.currentProc = sched.currentProc := by
        rw [after]
        split <;> rfl
      have isTid : sched.currentProc = tid := by rw [← current, switched]
      have unsaved : kernel'.sched.procs tid = sched.procs tid := by
        rw [after]
        split
        · rename_i counted
          apply Sched.saveCtx_procs_of_ne
          intro same
          apply different
          rw [isTid, same]
          exact Int.toNat_of_nonneg counted.1
        · rfl
      rcases exists_ with ⟨_, lt, present⟩
      rw [isTid, Int.toNat_natCast] at result present
      rw [isTid] at lt
      rw [procs] at present
      rw [result, unsaved, procs]
      exact inv.resumes tid (by omega) present
  · rw [same] at changed
    exact (changed rfl).elim
  · have kept := (syscallInterrupt_sched reply ctx history.kernel).2.1
    rw [← called] at kept
    exact (changed kept).elim

end

/-! ## Two kernel processes -/

/-- A kernel process with this entry point. -/
def kernelProcess (entry : Nat) : ProcessSpec where
  name := []
  entry := entry
  arg := 0
  stack := 0
  user := false
  userPml4 := 0
  kernelPml4 := 4096
  newStack := 8192
  defaultCwd := 0

/-- A system call which does nothing. -/
def noReply : SyscallReply :=
  ⟨0, fun _ => -1⟩

/-- The timer interrupts code at this address. -/
def tickAt (rip : Nat) : RegisterCtx :=
  { RegisterCtx.zero with vector := 0x20, rip := rip }

instance (history : History) :
    (op : KernelOp) → Decidable (switchSystem.legal history op)
  | .createProcess _ => inferInstanceAs (Decidable True)
  | .enqueueProc tid =>
      inferInstanceAs (Decidable (history.kernel.sched.Exists tid))
  | .startRunning => inferInstanceAs (Decidable True)
  | .interrupt _ _ => inferInstanceAs (Decidable True)

/-- Two processes take turns; the first is interrupted at this address. -/
def takingTurns (rip : Nat) : List KernelOp :=
  [.createProcess (kernelProcess 0x1000),
    .createProcess (kernelProcess 0x2000), .enqueueProc 0, .enqueueProc 1,
    .startRunning, .interrupt noReply (tickAt 0),
    .interrupt noReply (tickAt rip)]

/-- The first process was interrupted in the lower half of memory. -/
def interruptedLow : History :=
  (switchSystem.replay .boot (takingTurns 0x1234)).get (by decide +kernel)

/-- The next tick. -/
def resumedLow : RegisterCtx × Kernel :=
  (interruptDispatch noReply (tickAt 0x2000) interruptedLow.kernel).get
    (by decide +kernel)

/-- The first process was interrupted in the kernel's half of memory. -/
def interruptedHigh : History :=
  (switchSystem.replay .boot (takingTurns (kernelHalf + 0x1234))).get
    (by decide +kernel)

/-- The next tick. -/
def resumedHigh : RegisterCtx × Kernel :=
  (interruptDispatch noReply (tickAt 0x2000) interruptedHigh.kernel).get
    (by decide +kernel)

end ForsKernel.Proc
