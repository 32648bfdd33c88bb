import Mathlib.Data.List.Rotate
import ForsKernel.Syscall.Isolation

/-!
# Taking turns

`arch_start_running_procs` has the timer call the scheduler at every tick.
Nothing else turns the run queue, so between two changes of the queue its
processes take turns in order, whatever other interrupts and system calls come
in between, and none of them is left out.
-/

namespace ForsKernel.Syscall

open ForsKernel.Fs
open ForsKernel.Lib.Transition
open ForsKernel.Proc

variable
  {ω : Type*}
  {mounts : Nat → FsOps ω}

/-! ## The scheduler's turns -/

/-- The queue has turned this often, and its last front is what runs. -/
structure Turned
    (sched sched' : Sched)
    (turns : Nat) :
    Prop where
  rotated : sched'.queue.tids = sched.queue.tids.rotate turns
  runs : turns ≠ 0 → sched.queue.tids[(turns - 1) %
    sched.queue.tids.length]? = some sched'.currentProc
  waits : turns = 0 → sched'.currentProc = sched.currentProc

section

variable
  {sched sched' : Sched}
  {turns : Nat}

theorem Turned.refl (sched : Sched) : Turned sched sched 0 :=
  ⟨(List.rotate_zero _).symm, fun turned => (turned rfl).elim, fun _ => rfl⟩

/-- Another call of the scheduler is another turn. -/
theorem Turned.schedule
    (turned : Turned sched sched' turns)
    (inv : SchedInv sched')
    (waiting : sched.queue.tids ≠ []) :
    Turned sched (scheduleSetCurrentProc sched') (turns + 1) := by
  rcases RunQueue.schedule_cases inv.queue_wf with
    ⟨tid, queue', scheduled, wf', ⟨empty, _⟩ | ⟨rest, front, back⟩⟩
  · rw [turned.rotated, List.rotate_eq_nil_iff] at empty
    exact (waiting empty).elim
  · have after : scheduleSetCurrentProc sched' =
        { sched' with queue := queue', currentProc := tid } := by
      rw [scheduleSetCurrentProc, scheduled]
    rw [after]
    have positive := List.length_pos_iff.mpr waiting
    refine ⟨?_, ?_, fun none_turned => (Nat.succ_ne_zero _ none_turned).elim⟩
    · calc queue'.tids = rest ++ [tid] := back
        _ = sched'.queue.tids.rotate 1 := by
          rw [front, List.rotate_cons_succ, List.rotate_zero]
        _ = sched.queue.tids.rotate (turns + 1) := by
          rw [turned.rotated, List.rotate_rotate]
    · intro _
      have head := congrArg List.head? (turned.rotated.symm.trans front)
      rw [← List.rotate_mod, List.head?_rotate (Nat.mod_lt _ positive),
        List.head?_cons] at head
      rw [Nat.add_sub_cancel]
      exact head

/-- All registered handles are called at every tick. -/
def EveryTick (timer : Timer TimerCallback) : Prop :=
  ∀ handle ∈ timer.handles, handle.n = 1

/-- A tick turns the queue once for each handle. -/
theorem timerTick_turned
    {timer timer' : Timer TimerCallback}
    {start : Sched}
    (every : EveryTick timer)
    (turned : Turned start sched turns)
    (inv : SchedInv sched)
    (waiting : start.queue.tids ≠ [])
    (ticked : timer.timerTick TimerCallback.call sched =
      some (timer', sched')) :
    Turned start sched' (turns + timer.handles.length) ∧
      timer'.handles = timer.handles := by
  rcases Option.map_eq_some_iff.mp ticked with ⟨after, ran, result⟩
  cases result
  refine ⟨?_, rfl⟩
  clear ticked
  rw [EveryTick] at every
  generalize timer.handles = handles at every ran
  generalize (timer.ticks + 1) % 2 ^ 64 = ticks at ran
  induction handles generalizing sched turns with
  | nil =>
      cases ran
      exact turned
  | cons handle rest induction =>
      have once := every handle (by simp)
      rw [Timer.runHandles, once, if_neg (by decide), Nat.mod_one,
        if_pos rfl] at ran
      have step : handle.cbk.call sched = scheduleSetCurrentProc sched := by
        cases handle.cbk
        rfl
      rw [step] at ran
      have later := induction (turned.schedule inv waiting) inv.schedule
        (fun handle member => every handle (List.mem_cons_of_mem _ member))
        ran
      rw [List.length_cons, Nat.add_comm rest.length, ← Nat.add_assoc]
      exact later

end

/-! ## One event -/

/-- The timer interrupts. -/
def IsTick : KernelEvent → Bool
  | .interrupt _ ctx => ctx.vector == 0x20
  | _ => false

/-- The event leaves it to the timer to change the run queue. -/
def LeavesQueue : KernelEvent → Prop
  | .enqueueProc _ => False
  | .startRunning => False
  | _ => True

/-- The number of timer interrupts. -/
def clockTicks (events : List KernelEvent) : Nat :=
  events.countP IsTick

section

variable
  {source state target : KernelState ω}
  {event : KernelEvent}

def KernelState.timer (state : KernelState ω) : Timer TimerCallback :=
  state.history.kernel.timer

/-- What an event does to the timer, and to the queue if it is no tick. -/
theorem kernel_step_cases
    (last : (kernelSystem mounts).Step state event target) :
    ∃ op vfs history, state.scheduled mounts event = some (op, vfs) ∧
      state.history.step op = some history ∧ target = ⟨history, vfs⟩ := by
  rcases Option.bind_eq_some_iff.mp last.2 with ⟨⟨op, vfs⟩, viewed, moved⟩
  rcases Option.map_eq_some_iff.mp moved with ⟨history, made, rfl⟩
  exact ⟨op, vfs, history, viewed, made, rfl⟩

/-- A timer interrupt ticks, and changes registers only after that. -/
theorem timerInterrupt_ticked
    {ctx ret : RegisterCtx}
    {kernel kernel' : Kernel}
    (returned : timerInterrupt ctx kernel = some (ret, kernel')) :
    ∃ sched, kernel.timer.timerTick TimerCallback.call kernel.sched =
        some (kernel'.timer, sched) ∧
      kernel'.sched.queue = sched.queue ∧
      kernel'.sched.currentProc = sched.currentProc := by
  rcases Option.bind_eq_some_iff.mp returned with
    ⟨⟨timer', sched⟩, ticked, continued⟩
  simp only at continued
  split at continued
  · cases continued
    exact ⟨sched, ticked, rfl, rfl⟩
  · generalize saved :
      (if 0 ≤ kernel.sched.currentProc ∧ Saved ctx then
        sched.saveCtx kernel.sched.currentProc.toNat ctx
      else sched) = after at continued
    have same : after.queue = sched.queue ∧
        after.currentProc = sched.currentProc := by
      rw [← saved]
      split <;> exact ⟨rfl, rfl⟩
    split at continued
    · cases continued
    · cases continued
      exact ⟨sched, ticked, same⟩

/-- The interrupts which are no ticks keep the timer and the queue. -/
theorem interruptDispatch_untimed
    {reply : SyscallReply}
    {ctx ret : RegisterCtx}
    {kernel kernel' : Kernel}
    (untimed : ctx.vector ≠ 0x20)
    (returned : interruptDispatch reply ctx kernel = some (ret, kernel')) :
    kernel'.timer = kernel.timer ∧
      kernel'.sched.queue = kernel.sched.queue ∧
      kernel'.sched.currentProc = kernel.sched.currentProc := by
  rw [interruptDispatch] at returned
  split at returned
  · rename_i isTimer
    exact (untimed isTimer).elim
  · cases returned
    exact ⟨rfl, rfl, rfl⟩
  · cases returned
    exact ⟨rfl, rfl, rfl⟩
  · cases returned
    exact ⟨rfl, rfl, rfl⟩
  · have sched := syscallInterrupt_sched reply ctx kernel
    have timer : (syscallInterrupt reply ctx kernel).2.timer =
        kernel.timer := by
      rw [syscallInterrupt]
      split
      · rfl
      · split <;> rfl
    rw [Option.some.inj returned] at sched timer
    exact ⟨timer, sched.1, sched.2.1⟩
  · cases returned

/-! ## Whole runs -/

/-- All handles are registered by `arch_start_running_procs`. -/
theorem everyTick_of_reachable
    (reachable : (kernelSystem mounts).Reachable state) :
    EveryTick state.timer := by
  refine @System.Reachable.invariant _ _ (kernelSystem mounts) state
    (fun state => EveryTick state.timer) reachable ?_ ?_
  · rintro start ⟨booted, _⟩
    rw [EveryTick, KernelState.timer, booted]
    simp [History.boot]
  · intro state event next every last
    rcases kernel_step_cases last with ⟨op, vfs, history, viewed, made, rfl⟩
    cases event with
    | createProcess spec =>
        cases viewed
        cases made
        exact every
    | enqueueProc tid =>
        cases viewed
        cases made
        exact every
    | startRunning =>
        cases viewed
        cases made
        intro handle member
        rw [KernelState.timer] at member
        simp only [archStartRunningProcs, Timer.addTimerHandle] at member
        split at member
        · exact every handle member
        · rcases List.mem_append.mp member with old | new
          · exact every handle old
          · cases List.mem_singleton.mp new
            rfl
    | interrupt memory ctx =>
        rcases Option.map_eq_some_iff.mp viewed with ⟨answered, _, isOp⟩
        cases isOp
        rcases Option.map_eq_some_iff.mp made with
          ⟨⟨ret, kernel⟩, returned, rfl⟩
        have handles : kernel.timer.handles = state.timer.handles := by
          by_cases timed : ctx.vector = 0x20
          · rw [interruptDispatch, timed] at returned
            rcases timerInterrupt_ticked returned with ⟨sched, ticked, _⟩
            rcases Option.map_eq_some_iff.mp ticked with ⟨_, _, result⟩
            rw [← (Prod.mk.inj result).1]
            rfl
          · rw [(interruptDispatch_untimed timed returned).1]
            rfl
        intro handle member
        rw [KernelState.timer] at member
        exact every handle (handles ▸ member)

/-- A step turns the queue at a tick, and otherwise leaves it alone. -/
theorem turned_step
    {turns : Nat}
    {start : Sched}
    (reachable : (kernelSystem mounts).Reachable state)
    (waiting : start.queue.tids ≠ [])
    (turned : Turned start state.sched turns)
    (leaves : LeavesQueue event)
    (last : (kernelSystem mounts).Step state event target) :
    Turned start target.sched (turns + if IsTick event then
        state.timer.handles.length else 0) ∧
      target.timer.handles = state.timer.handles := by
  have every := everyTick_of_reachable reachable
  have inv := (switchInv_of_kernel reachable).sched
  rcases kernel_step_cases last with ⟨op, vfs, history, viewed, made, rfl⟩
  cases event with
  | createProcess spec =>
      cases viewed
      cases made
      exact ⟨⟨turned.rotated, turned.runs, turned.waits⟩, rfl⟩
  | enqueueProc tid => exact leaves.elim
  | startRunning => exact leaves.elim
  | interrupt memory ctx =>
      rcases Option.map_eq_some_iff.mp viewed with ⟨answered, _, isOp⟩
      cases isOp
      rcases Option.map_eq_some_iff.mp made with
        ⟨⟨ret, kernel⟩, returned, rfl⟩
      by_cases timed : ctx.vector = 0x20
      · rw [interruptDispatch, timed] at returned
        rcases timerInterrupt_ticked returned with
          ⟨sched, ticked, queue, current⟩
        rcases timerTick_turned every turned inv waiting ticked with
          ⟨later, handles⟩
        rw [IsTick, timed]
        refine ⟨⟨?_, ?_, ?_⟩, handles⟩
        · exact (congrArg RunQueue.tids queue).trans later.rotated
        · intro some_turn
          exact (later.runs some_turn).trans (congrArg some current.symm)
        · intro no_turn
          exact current.trans (later.waits no_turn)
      · rcases interruptDispatch_untimed timed returned with
          ⟨timer, queue, current⟩
        have noTick : IsTick (.interrupt memory ctx) = false := by
          simpa [IsTick] using timed
        rw [noTick]
        refine ⟨⟨?_, ?_, ?_⟩, congrArg Timer.handles timer⟩
        · exact (congrArg RunQueue.tids queue).trans turned.rotated
        · intro some_turn
          exact (turned.runs some_turn).trans (congrArg some current.symm)
        · intro no_turn
          exact current.trans (turned.waits no_turn)

/-- Many steps turn the queue once for each tick and handle. -/
theorem turned_run
    {events : List KernelEvent}
    (reachable : (kernelSystem mounts).Reachable source)
    (waiting : source.sched.queue.tids ≠ [])
    (run : ((kernelSystem mounts).restrict fun _ event =>
      LeavesQueue event).Run source events target) :
    Turned source.sched target.sched
      (source.timer.handles.length * clockTicks events) := by
  have result : (kernelSystem mounts).Reachable target ∧
      target.timer.handles = source.timer.handles ∧
      Turned source.sched target.sched
        (source.timer.handles.length * clockTicks events) := by
    induction run with
    | nil => exact ⟨reachable, rfl, .refl _⟩
    | @snoc middle target events event _ last induction =>
        rcases induction with ⟨here, handles, turned⟩
        have kernelStep := last.of_restrict
        rcases turned_step here waiting turned last.1.2 kernelStep with
          ⟨later, handles'⟩
        refine ⟨here.next kernelStep, handles'.trans handles, ?_⟩
        have count : source.timer.handles.length *
              clockTicks (events ++ [event]) =
            source.timer.handles.length * clockTicks events +
              if IsTick event then middle.timer.handles.length else 0 := by
          rw [clockTicks, List.countP_append, List.countP_singleton,
            Nat.mul_add, handles, clockTicks]
          split <;> simp
        rw [count]
        exact later
  exact result.2.2

/-- Any number of hits up to their total is that of a beginning. -/
theorem exists_begin_countP
    {α : Type*}
    (test : α → Bool)
    (list : List α)
    {count : Nat}
    (le : count ≤ list.countP test) :
    ∃ done rest, list = done ++ rest ∧ done.countP test = count := by
  induction list using List.reverseRecOn with
  | nil => exact ⟨[], [], rfl, by simpa using le.antisymm (by simp) |>.symm⟩
  | append_singleton list last induction =>
      by_cases whole : count = (list ++ [last]).countP test
      · exact ⟨list ++ [last], [], by simp, whole.symm⟩
      · rw [List.countP_append, List.countP_singleton] at le whole
        have less : count ≤ list.countP test := by
          split at le <;> split at whole <;> omega
        rcases induction less with ⟨done, rest, rfl, hits⟩
        exact ⟨done, rest ++ [last], by simp, hits⟩

/--
From any reachable state in which something waits, and as long as nobody else
changes the queue, every tick turns the queue once for each time that
`arch_start_running_procs` was called.  If it was called once, then as many
ticks as there are processes waiting let each of them run, and each at the
tick which is its turn.
-/
theorem round_robin
    {events : List KernelEvent}
    (reachable : (kernelSystem mounts).Reachable source)
    (waiting : source.sched.queue.tids ≠ [])
    (run : ((kernelSystem mounts).restrict fun _ event =>
      LeavesQueue event).Run source events target) :
    Turned source.sched target.sched
        (source.timer.handles.length * clockTicks events) ∧
      (source.timer.handles.length = 1 →
        source.sched.queue.tids.length ≤ clockTicks events →
        ∀ turn tid, source.sched.queue.tids[turn]? = some tid →
          ∃ done rest middle, events = done ++ rest ∧
            clockTicks done = turn + 1 ∧
            (kernelSystem mounts).Run source done middle ∧
            middle.sched.currentProc = tid) := by
  refine ⟨turned_run reachable waiting run, ?_⟩
  intro one enough turn tid waits
  have lt := (List.getElem?_eq_some_iff.mp waits).1
  rcases exists_begin_countP IsTick events
    (Nat.le_trans (Nat.succ_le_of_lt lt) enough) with
    ⟨done, rest, whole, ticks⟩
  rcases run.split whole with ⟨middle, first⟩
  have turned := turned_run reachable waiting first
  rw [one, Nat.one_mul, show clockTicks done = turn + 1 from ticks] at turned
  have runs := turned.runs (Nat.succ_ne_zero turn)
  rw [Nat.add_sub_cancel, Nat.mod_eq_of_lt lt, waits] at runs
  exact ⟨done, rest, middle, whole, ticks, first.of_restrict,
    (Option.some.inj runs).symm⟩

end

/-! ## Two processes with a system call in between -/

/-- The two processes wait and the timer has been set up. -/
def bothWait : KernelState Unit :=
  ((kernelSystem fun _ => plainFs).replay bootKernel
    (firstOpens.take 5)).get (by decide +kernel)

instance : (event : KernelEvent) → Decidable (LeavesQueue event)
  | .createProcess _ => inferInstanceAs (Decidable True)
  | .enqueueProc _ => inferInstanceAs (Decidable False)
  | .startRunning => inferInstanceAs (Decidable False)
  | .interrupt _ _ => inferInstanceAs (Decidable True)

instance
    (state : KernelState ω)
    (event : KernelEvent) :
    Decidable (((kernelSystem mounts).restrict fun _ event =>
      LeavesQueue event).legal state event) :=
  inferInstanceAs (Decidable (_ ∧ _))

/-- Two ticks, with a system call after each. -/
def bothRan : KernelState Unit :=
  (((kernelSystem fun _ => plainFs).restrict fun _ event =>
    LeavesQueue event).replay bothWait
      (firstOpens.drop 5 ++ secondOpens)).get (by decide +kernel)

theorem round_robin_bothRan :
    bothWait.sched.queue.tids = [0, 1] ∧
      bothRan.sched.queue.tids = [0, 1].rotate 2 ∧
      ∃ done rest middle, firstOpens.drop 5 ++ secondOpens = done ++ rest ∧
        clockTicks done = 2 ∧
        (kernelSystem fun _ => plainFs).Run bothWait done middle ∧
        middle.sched.currentProc = 1 := by
  have queue : bothWait.sched.queue.tids = [0, 1] := by decide +kernel
  have handles : bothWait.timer.handles.length = 1 := by decide +kernel
  have ticks : clockTicks (firstOpens.drop 5 ++ secondOpens) = 2 := by
    decide +kernel
  have reachable : (kernelSystem fun _ => plainFs).Reachable bothWait :=
    System.reachable_of_replay bootKernel_init (Option.some_get _).symm
  have run := System.run_of_replay (.nil bothWait)
    (show System.replay _ bothWait (firstOpens.drop 5 ++ secondOpens) =
      some bothRan from (Option.some_get _).symm)
  rw [List.nil_append] at run
  rcases round_robin reachable (by rw [queue]; decide) run with
    ⟨turned, each⟩
  have rotated := turned.rotated
  rw [queue, handles, ticks] at rotated
  exact ⟨queue, rotated, each handles (by rw [queue, ticks]; decide) 1 1
    (by rw [queue]; rfl)⟩

end ForsKernel.Syscall
